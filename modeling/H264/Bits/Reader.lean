import H264.Bits.Codeword
import H264.Error

/-!
# Reading a bit stream

A `Reader` is a byte string with the offset of a byte and of a bit in this byte; `Reader.pos` is the
number of bits before it, and `Reader.rest` its view, the bits that remain.
A field is read by a `Read` action, which names the syntax element so that an error can tell which
field failed. An action that fails leaves the reader where it stopped.

The end of the data is marked by its last one bit: `Reader.hasMore` says that something other than
the closing one bit and the zeros after it is left, and `Read.finishRbsp` consumes that close.
-/

namespace H264

/-- A byte string, the offset of the byte that holds the next bit, and the offset of the bit in this
byte, most significant first. -/
structure Reader where
  data : Bytes
  byteOffset : Nat := 0
  bitOffset : Fin 8 := 0
deriving DecidableEq, Repr, Inhabited

/-- An action that reads a field or a structure. -/
abbrev Read := EStateM Error Reader

namespace Reader

/-! ## The position -/

/-- The number of bits already consumed. -/
def pos (r : Reader) : Nat :=
  8 * r.byteOffset + r.bitOffset

/-- The reader of some data with nothing consumed. -/
abbrev start (data : Bytes) : Reader :=
  { data }

/-- The reader of some data with a number of bits consumed. -/
def ofPos (data : Bytes) (pos : Nat) : Reader where
  data := data
  byteOffset := pos >>> 3
  bitOffset := ⟨pos &&& 7, Nat.lt_succ_of_le Nat.and_le_right⟩

/-- The number of bits of the data. -/
def size (r : Reader) : Nat :=
  8 * r.data.length

/-- The number of bits that remain. -/
def bitsLeft (r : Reader) : Nat :=
  r.size - r.pos

/-- The bits that remain. -/
def rest (r : Reader) : List Bool :=
  (Bytes.bits r.data).drop r.pos

/-- The reader with `count` more bits consumed. -/
def advance (r : Reader) (count : Nat) : Reader :=
  ofPos r.data (r.pos + count)

/-- Whether the position is at the start of a byte. -/
def isAligned (r : Reader) : Bool :=
  r.bitOffset == 0

/-- The bytes from the one that holds the next bit on. -/
def bytesLeft (r : Reader) : Nat :=
  r.data.length - r.byteOffset

/-- The number in the next `width` bits: the bytes that hold them, without the bits around. -/
def peek (r : Reader) (width : Nat) : Nat :=
  let first := r.pos / 8
  let last := (r.pos + width + 7) / 8
  let window := Bytes.toNat ((r.data.drop first).take (last - first))
  (window >>> (8 * last - (r.pos + width))) % 1 <<< width

/-! ## The end of the data -/

/-- The position of the last one bit of a byte string. -/
def lastOne? (data : Bytes) : Option Nat :=
  let bits := Bytes.bits data
  (bits.reverse.findIdx? id).map fun back => bits.length - 1 - back

/-- Whether a one bit stands at a position or after it, in the byte of the position or in one of the
bytes that follow. -/
def hasOneFrom (data : Bytes) (pos : Nat) : Bool :=
  match data.drop (pos / 8) with
  | [] => false
  | byte :: later => byte.toNat % 1 <<< (8 - pos % 8) != 0 || later.any (· != 0)

/-- Whether something other than the closing one bit and the zeros after it is left. -/
def hasMore (r : Reader) : Bool :=
  hasOneFrom r.data (r.pos + 1)

/-- Whether a one bit is left. -/
def hasOne (r : Reader) : Bool :=
  hasOneFrom r.data r.pos

end Reader

namespace Read

/-! ## Fixed-width fields -/

/-- The greatest width of a fixed-width field. -/
def maxWidth : Nat := 32

/-- The width of a field as a caller states it, which may not be negative. -/
def width (stated : Int) : Read Nat :=
  if 0 ≤ stated then return stated.toNat else throw (.misuse (.readWidth stated))

/-- An unsigned field of `width` bits. -/
def bits (width : Nat) (name : String) : Read Nat := do
  if maxWidth < width then throw (.misuse (.readWidth width))
  let r ← get
  if r.bitsLeft < width then throw (.truncated name)
  set (r.advance width)
  return r.peek width

/-- A field of one bit. -/
def flag (name : String) : Read Bool :=
  return (← bits 1 name) == 1

/-- A field of eight bits. -/
def u8 (name : String) : Read Nat :=
  bits 8 name

/-- A two's complement field of `width` bits. -/
def signed (width : Nat) (name : String) : Read Int :=
  return Codeword.signedOfPattern width (← bits width name)

/-- A field that is passed over. -/
def skip (count : Nat) (name : String) : Read Unit := do
  let r ← get
  if r.bitsLeft < count then throw (.truncated name)
  set (r.advance count)

/-! ## Exp-Golomb fields -/

/-- The zeros before the next one bit, which is consumed too; fails after `budget` zeros. -/
def leadingZeros (name : String) : (budget : Nat) → Read Nat
  | 0 => throw (.field name (.overflow .longCode))
  | budget + 1 => do
    if ← flag name then return 0
    return (← leadingZeros name budget) + 1

/-- An unsigned Exp-Golomb field. -/
def ue (name : String) : Read Nat := do
  let zeros ← leadingZeros name (Codeword.maxLeadingZeros + 1)
  return 1 <<< zeros - 1 + (← bits zeros name)

/-- A signed Exp-Golomb field. -/
def se (name : String) : Read Int :=
  return Codeword.signedOfNumber (← ue name)

/-- An unsigned Exp-Golomb field of at most `maximum`. -/
def ueMax (name : String) (maximum : Int) : Read Nat := do
  let value ← ue name
  if maximum < value then throw (.illegal name value (.atMost maximum))
  return value

/-- A signed Exp-Golomb field from `least` to `greatest`. -/
def seRange (name : String) (least greatest : Int) : Read Int := do
  let value ← se name
  unless least ≤ value ∧ value ≤ greatest do
    throw (.illegal name value (.within least greatest))
  return value

/-! ## Repetition and presence -/

/-- A structure read `count` times. -/
def times {α : Type} (item : Read α) : (count : Nat) → Read (List α)
  | 0 => return []
  | count + 1 => do
    let first ← item
    return first :: (← times item count)

/-- A structure that is read if it is present. -/
def optional {α : Type} (present : Bool) (item : Read α) : Read (Option α) :=
  if present then some <$> item else return none

/-- A structure after a flag that says whether it is present. -/
def flagged {α : Type} (name : String) (item : Read α) : Read (Option α) := do
  optional (← flag name) item

/-! ## The end of a structure -/

/-- Pass over the rest of a byte that has been begun. -/
def align : Read Unit :=
  modify fun r =>
    if r.bitOffset = 0 then r else { r with byteOffset := r.byteOffset + 1, bitOffset := 0 }

/-- Whether something other than the closing bits is left. -/
def more : Read Bool :=
  return (← get).hasMore

/-- Pass over everything before the closing bits. -/
def skipToTrailing : Read Unit :=
  modify fun r =>
    match Reader.lastOne? r.data with
    | some last => r.advance (last - r.pos)
    | none => r

/-- Consume all that is left. -/
def consume : Read Unit :=
  modify fun r => r.advance r.bitsLeft

/-- Consume the closing one bit and the zeros after it; anything else that is left is an error. -/
def finishRbsp : Read Unit := do
  if (← get).bitsLeft = 0 then throw (.truncated "rbsp_stop_one_bit")
  unless ← flag "rbsp_stop_one_bit" do
    throw (.illegal "rbsp_stop_one_bit" 0 .unstated)
  let r ← get
  if r.hasOne then throw (.illegal "rbsp_trailing_bits" r.bitsLeft .nothingAfterStopBit)
  consume

/-- Consume the end of a message payload: nothing, or a one bit and zeros. -/
def finishSeiPayload : Read Unit := do
  if (← get).bitsLeft = 0 then return
  unless ← flag "bit_equal_to_one" do
    throw (.illegal "bit_equal_to_one" 0 .nothingInPayload)
  let r ← get
  if r.hasOne then throw (.illegal "sei_payload" r.bitsLeft .nothingAfterPayloadEnd)
  consume

/-! ## Running -/

/-- The outcome of reading a byte string from its start. -/
def value {α : Type} (action : Read α) (data : Bytes) : Except Error α :=
  match action (.start data) with
  | .ok result _ => .ok result
  | .error error _ => .error error

/-- Fail or go on with a result from outside the stream. -/
def ofExcept {α : Type} : Except Error α → Read α
  | .ok result => return result
  | .error error => throw error

end Read

end H264
