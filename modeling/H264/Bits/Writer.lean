import H264.Bits.Codeword
import H264.Error

/-!
# Writing a bit stream

A `Writer` holds the bits written so far as one number that grows, and counts them. Each operation
shifts a field in, or refuses a value that the field cannot hold and leaves the writer as it was.
`Writer.bits` is the view of a writer as the list of its bits.
-/

namespace H264

/-- The number that the bits written so far make, and how many they are. -/
structure Writer where
  value : Nat := 0
  length : Nat := 0
deriving DecidableEq, Repr, Inhabited

namespace Writer

/-- The bits written so far, in order. -/
def bits (w : Writer) : List Bool :=
  Bits.ofNat w.length w.value

/-- The writer with a number of `width` bits shifted in. -/
def put (w : Writer) (width value : Nat) : Writer :=
  { value := w.value <<< width ||| value, length := w.length + width }

/-- The writer with some bits appended. -/
def append (w : Writer) (codeword : List Bool) : Writer :=
  w.put codeword.length (Bits.toNat codeword)

/-- An unsigned field of `width` bits. -/
def fixed (w : Writer) (width value : Int) : Except Misuse Writer :=
  if width < 0 then .error (.negativeWidth width)
  else if value < 0 ∨ value.toNat >>> width.toNat ≠ 0 then .error (.doesNotFit value width)
  else .ok (w.put width.toNat value.toNat)

/-- A field of one bit. -/
def flag (w : Writer) (value : Bool) : Except Misuse Writer :=
  w.fixed 1 value.toNat

/-- A field of eight bits. -/
def u8 (w : Writer) (value : Int) : Except Misuse Writer :=
  w.fixed 8 value

/-- A two's complement field of `width` bits, one of which is the sign. -/
def signed (w : Writer) (width value : Int) : Except Misuse Writer :=
  if width ≤ 0 then .error .noSignBit
  else
    let half : Int := (1 <<< (width.toNat - 1) : Nat)
    if -half ≤ value ∧ value < half then
      w.fixed width (value % (1 <<< width.toNat : Nat))
    else .error (.doesNotFitSigned value width)

/-- An unsigned Exp-Golomb field: as many zeros as the next number has bits after its first, and
then this number. -/
def ue (w : Writer) (value : Int) : Except Misuse Writer :=
  if 0 ≤ value ∧ value ≤ Codeword.maxCodeNumber then do
    let zeros := Nat.log2 (value.toNat + 1)
    (← w.fixed zeros 0).fixed (zeros + 1) (value + 1)
  else .error (.noExpGolombCode value)

/-- A signed Exp-Golomb field. -/
def se (w : Writer) (value : Int) : Except Misuse Writer :=
  w.ue (Codeword.numberOfSigned value)

/-- The number of bits that the last byte lacks. -/
def missing (w : Writer) : Nat :=
  (8 - w.length % 8) % 8

/-- The writer filled up with zero bits to a whole byte. -/
def align (w : Writer) : Writer :=
  w.put w.missing 0

/-- The writer closed by a one bit and zeros to a whole byte. -/
def trailing (w : Writer) : Writer :=
  (w.put 1 1).align

/-- The bytes written, the last one padded with zero bits. -/
def toBytes (w : Writer) : Bytes :=
  Bytes.ofNat ((w.length + w.missing) / 8) (w.value <<< w.missing)

end Writer

/-- The bytes of numbers that a caller gives, each of which has to be one of 0 to 255. -/
def Bytes.ofNumbers (numbers : List Int) : Except Misuse Bytes :=
  if numbers.all fun number => 0 ≤ number ∧ number < 256 then .ok (numbers.map UInt8.ofInt)
  else .error .noByte

end H264
