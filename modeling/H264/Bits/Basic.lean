/-!
# Bytes and bit lists

A byte string is a list of `UInt8`, and the bits of a byte string are read most significant bit
first. `Bits.ofNat` writes a number in a fixed width, `Bits.toNat` reads one back, and `Bytes.bits`
is the bit view of a byte string.
-/

namespace H264

/-- A byte string. -/
abbrev Bytes := List UInt8

namespace Bits

/-! ## Fixed-width numbers -/

/-- The `width` low bits of `value`, most significant first. -/
def ofNat : (width value : Nat) → List Bool
  | 0, _ => []
  | width + 1, value => value.testBit width :: ofNat width value

/-- The number that a bit list writes, most significant bit first. -/
def toNat (bits : List Bool) : Nat :=
  bits.foldl (fun value bit => 2 * value + bit.toNat) 0

@[simp] theorem length_ofNat (width value : Nat) : (ofNat width value).length = width := by
  induction width with
  | zero => rfl
  | succ width ih => simp [ofNat, ih]

end Bits

namespace Bytes

/-- The eight bits of a byte, most significant first. -/
def octet (byte : UInt8) : List Bool :=
  Bits.ofNat 8 byte.toNat

/-- The bits of a byte string, most significant bit of the first byte first. -/
def bits (data : Bytes) : List Bool :=
  data.flatMap octet

/-- The big-endian number that a byte string writes. -/
def toNat (data : Bytes) : Nat :=
  data.foldl (fun value byte => 256 * value + byte.toNat) 0

/-- The low `size` bytes of `value`, most significant first. -/
def ofNat : (size value : Nat) → Bytes
  | 0, _ => []
  | size + 1, value => UInt8.ofNat (value >>> (8 * size)) :: ofNat size value

@[simp] theorem length_octet (byte : UInt8) : (octet byte).length = 8 :=
  Bits.length_ofNat 8 _

@[simp] theorem length_bits (data : Bytes) : (bits data).length = 8 * data.length := by
  induction data with
  | nil => rfl
  | cons byte data ih => simp only [bits, List.flatMap_cons, List.length_append, length_octet,
      List.length_cons] at ih ⊢; omega

@[simp] theorem bits_append (front back : Bytes) : bits (front ++ back) = bits front ++ bits back :=
  List.flatMap_append

end Bytes

end H264
