import H264.Bits.Basic

/-!
# Codewords

The variable-length and signed codes of the bit stream syntax, as bit lists. An Exp-Golomb code
`ue v` writes `v + 1` in binary after one zero for each of its bits but the first; `se v` sends a
signed value through the numbering 0, 1, -1, 2, -2, …; `twosComplement` is the fixed-width signed
code.
-/

namespace H264.Codeword

/-! ## Exp-Golomb codes -/

/-- The most zeros an Exp-Golomb code may begin with. -/
def maxLeadingZeros : Nat := 31

/-- The greatest number with an Exp-Golomb code of at most `maxLeadingZeros` leading zeros. -/
def maxCodeNumber : Nat := 1 <<< (maxLeadingZeros + 1) - 2

/-- The Exp-Golomb code of `value`. -/
def ue (value : Nat) : List Bool :=
  let zeros := Nat.log2 (value + 1)
  List.replicate zeros false ++ Bits.ofNat (zeros + 1) (value + 1)

/-- The signed value with a given code number: 0, 1, -1, 2, -2, … in order. -/
def signedOfNumber (number : Nat) : Int :=
  if number % 2 = 1 then ((number + 1) / 2 : Nat) else -((number / 2 : Nat) : Int)

/-- The code number of a signed value. -/
def numberOfSigned (value : Int) : Nat :=
  if 0 < value then 2 * value.toNat - 1 else 2 * (-value).toNat

/-- The signed Exp-Golomb code of `value`. -/
def se (value : Int) : List Bool :=
  ue (numberOfSigned value)

theorem signedOfNumber_numberOfSigned (value : Int) :
    signedOfNumber (numberOfSigned value) = value := by
  unfold signedOfNumber numberOfSigned
  split <;> split <;> omega

theorem numberOfSigned_signedOfNumber (number : Nat) :
    numberOfSigned (signedOfNumber number) = number := by
  unfold signedOfNumber numberOfSigned
  split <;> split <;> omega

/-! ## Two's complement -/

/-- The signed value of the `width`-bit pattern `pattern`: its top bit counts negatively. -/
def signedOfPattern (width pattern : Nat) : Int :=
  if 0 < width ∧ pattern.testBit (width - 1) then (pattern : Int) - (1 <<< width : Nat) else pattern

/-- The `width`-bit two's complement code of `value`. -/
def twosComplement (width : Nat) (value : Int) : List Bool :=
  Bits.ofNat width (value % (1 <<< width : Nat)).toNat

end H264.Codeword
