import H264.Bits.Writer

/-!
# Syntax elements

A syntax element with its value, by the descriptor that tells how it is sent: `u(n)`, `i(n)`,
`ue(v)` or `se(v)`. Each structure lists its elements in the order in which they are sent, so that
it can be written as well as read.
-/

namespace H264

/-- A syntax element with its value. -/
inductive Element
  | u (width value : Int)
  | i (width value : Int)
  | ue (value : Int)
  | se (value : Int)
deriving DecidableEq, Repr, Inhabited

namespace Element

/-! ## Lists of elements -/

/-- An element of one bit. -/
def flag (value : Bool) : Element :=
  u 1 value.toNat

/-- The elements of a part that may be absent. -/
def sent {α : Type} (part : α → List Element) : Option α → List Element
  | none => []
  | some value => part value

/-- The elements of a part after a flag that says whether it is present. -/
def flagged {α : Type} (part : α → List Element) (value : Option α) : List Element :=
  flag value.isSome :: sent part value

/-! ## Codewords -/

/-- The bits in which an element that fits is sent. -/
def codeword : Element → List Bool
  | u width value => Bits.ofNat width.toNat value.toNat
  | i width value => Codeword.twosComplement width.toNat value
  | ue value => Codeword.ue value.toNat
  | se value => Codeword.se value

/-- The bits in which some elements are sent. -/
def bits (elements : List Element) : List Bool :=
  elements.flatMap codeword

@[simp] theorem codeword_flag (value : Bool) : (flag value).codeword = [value] := by
  cases value <;> rfl

@[simp] theorem codeword_u (width value : Nat) :
    (u width value).codeword = Bits.ofNat width value := rfl

@[simp] theorem codeword_ue (value : Nat) : (ue value).codeword = Codeword.ue value := rfl

@[simp] theorem codeword_se (value : Int) : (se value).codeword = Codeword.se value := rfl

@[simp] theorem bits_nil : bits [] = [] := rfl

@[simp] theorem bits_cons (first : Element) (rest : List Element) :
    bits (first :: rest) = first.codeword ++ bits rest := List.flatMap_cons

@[simp] theorem bits_append (front back : List Element) :
    bits (front ++ back) = bits front ++ bits back := List.flatMap_append

/-- Whether the codeword of an element holds its value. -/
def Fits : Element → Prop
  | u width value => 0 ≤ width ∧ 0 ≤ value ∧ value.toNat < 1 <<< width.toNat
  | i width value =>
    0 < width ∧ -((1 <<< (width.toNat - 1) : Nat) : Int) ≤ value ∧
      value < ((1 <<< (width.toNat - 1) : Nat) : Int)
  | ue value => 0 ≤ value ∧ value ≤ Codeword.maxCodeNumber
  | se value => Codeword.numberOfSigned value ≤ Codeword.maxCodeNumber

instance : DecidablePred Fits := fun element => by
  cases element <;> unfold Fits <;> infer_instance

/-- The writer with an element appended, unless its codeword does not hold its value. -/
def write (w : Writer) : Element → Except Misuse Writer
  | u width value => w.fixed width value
  | i width value => w.signed width value
  | ue value => w.ue value
  | se value => w.se value

/-- The writer with some elements appended in order. -/
def writeAll (w : Writer) (elements : List Element) : Except Misuse Writer :=
  elements.foldlM write w

end Element

end H264
