import H264.Bits.Element
import H264.Bits.Reader
import H264.Slice.Type

/-!
# Changes of the reference lists

A slice may reorder the pictures it refers to by a list of steps, closed by the code 3. Steps that
name views are for multiview slices only.
-/

namespace H264

/-- What a step does with its operand. -/
inductive ModificationKind
  | subtractPicNum
  | addPicNum
  | longTermPicNum
  | subtractViewIdx
  | addViewIdx
deriving DecidableEq, Repr, Inhabited

namespace ModificationKind

/-- The `modification_of_pic_nums_idc` of a step. -/
def idc : ModificationKind → Nat
  | subtractPicNum => 0
  | addPicNum => 1
  | longTermPicNum => 2
  | subtractViewIdx => 4
  | addViewIdx => 5

/-- The step of a `modification_of_pic_nums_idc`. -/
def ofIdc? (multiview : Bool) : Nat → Option ModificationKind
  | 0 => some subtractPicNum
  | 1 => some addPicNum
  | 2 => some longTermPicNum
  | 4 => if multiview then some subtractViewIdx else none
  | 5 => if multiview then some addViewIdx else none
  | _ => none

/-- A description of a step. -/
def description : ModificationKind → String
  | subtractPicNum => "subtract_abs_diff_pic_num"
  | addPicNum => "add_abs_diff_pic_num"
  | longTermPicNum => "long_term_pic_num"
  | subtractViewIdx => "subtract_abs_diff_view_idx"
  | addViewIdx => "add_abs_diff_view_idx"

/-- The name of the operand of a step. -/
def operandName : ModificationKind → String
  | subtractPicNum | addPicNum => "abs_diff_pic_num_minus1"
  | longTermPicNum => "long_term_pic_num"
  | subtractViewIdx | addViewIdx => "abs_diff_view_idx_minus1"

end ModificationKind

/-- One step with its operand. -/
structure PicNumModification where
  kind : ModificationKind
  value : Nat
deriving DecidableEq, Repr, Inhabited

/-- The steps for both lists. -/
structure RefPicListModification where
  l0 : List PicNumModification := []
  l1 : List PicNumModification := []
deriving DecidableEq, Repr, Inhabited

namespace RefPicListModification

/-- The code that closes a list of steps. -/
def endIdc : Nat := 3

/-- The most steps for one list. -/
def maxSteps : Nat := 33

/-- The kind of the next step, or `none` at the close. -/
def readKind (multiview : Bool) : Read (Option ModificationKind) := do
  let idc ← Read.ue "modification_of_pic_nums_idc"
  if idc = endIdc then return none
  match ModificationKind.ofIdc? multiview idc with
  | some kind => return some kind
  | none => throw (.illegal "modification_of_pic_nums_idc" idc .unstated)

/-- The steps up to the close, `budget` at most. -/
def readSteps (multiview : Bool) : (budget : Nat) → Read (List PicNumModification)
  | 0 => do
    match ← readKind multiview with
    | none => return []
    | some kind =>
      throw (.illegal "modification_of_pic_nums_idc" kind.idc
        (.countAtMost maxSteps "modifications"))
  | budget + 1 => do
    match ← readKind multiview with
    | none => return []
    | some kind =>
      let value ← Read.ue kind.operandName
      return { kind, value } :: (← readSteps multiview budget)

/-- The steps for one list, none where the list is not used or not changed. -/
def readList (multiview used : Bool) (flagName : String) : Read (List PicNumModification) := do
  if used then
    if ← Read.flag flagName then return ← readSteps multiview maxSteps
  return []

/-- The steps for both lists. -/
def read (type : SliceType) (multiview : Bool) : Read RefPicListModification :=
  return {
    l0 := ← readList multiview (!type.isIntra) "ref_pic_list_modification_flag_l0"
    l1 := ← readList multiview type.usesL1 "ref_pic_list_modification_flag_l1" }

/-- The elements of the steps for one list; no steps are sent as a zero flag. -/
def listElements (used : Bool) (steps : List PicNumModification) : List Element :=
  if used then
    if steps.isEmpty then [.flag false]
    else
      .flag true :: steps.flatMap (fun step => [.ue step.kind.idc, .ue step.value]) ++ [.ue endIdc]
  else []

/-- The elements of the steps for both lists. -/
def elements (type : SliceType) (steps : RefPicListModification) : List Element :=
  listElements (!type.isIntra) steps.l0 ++ listElements type.usesL1 steps.l1

end RefPicListModification

end H264
