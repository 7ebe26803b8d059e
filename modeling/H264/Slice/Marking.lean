import H264.Bits.Element
import H264.Bits.Reader

/-!
# Marking of reference pictures

What a picture does to the pictures kept for reference. An instantaneous refresh says only what
becomes of itself and of earlier output; any other picture lets the oldest go, or gives a list of
operations, closed by the code 0.
-/

namespace H264

/-- One operation on the pictures kept for reference (Table 7-9). -/
inductive MemoryManagementOp
  | unmarkShortTerm (differenceOfPicNumsMinus1 : Nat)
  | unmarkLongTerm (longTermPicNum : Nat)
  | assignLongTerm (differenceOfPicNumsMinus1 longTermFrameIdx : Nat)
  | limitLongTerm (maxLongTermFrameIdxPlus1 : Nat)
  | unmarkAll
  | markCurrentLongTerm (longTermFrameIdx : Nat)
deriving DecidableEq, Repr, Inhabited

/-- What a picture does to the pictures kept for reference. -/
inductive DecRefPicMarking
  | idr (noOutputOfPriorPics longTermReference : Bool)
  | slidingWindow
  | adaptive (operations : List MemoryManagementOp)
deriving DecidableEq, Repr, Inhabited

namespace MemoryManagementOp

/-- The code of an operation. -/
def code : MemoryManagementOp → Nat
  | unmarkShortTerm _ => 1
  | unmarkLongTerm _ => 2
  | assignLongTerm .. => 3
  | limitLongTerm _ => 4
  | unmarkAll => 5
  | markCurrentLongTerm _ => 6

/-- The operands of an operation, by its code from 1 to 6. -/
def readOperands : (code : Nat) → Read MemoryManagementOp
  | 1 => return .unmarkShortTerm (← Read.ue "difference_of_pic_nums_minus1")
  | 2 => return .unmarkLongTerm (← Read.ue "long_term_pic_num")
  | 3 => do
    let difference ← Read.ue "difference_of_pic_nums_minus1"
    return .assignLongTerm difference (← Read.ue "long_term_frame_idx")
  | 4 => return .limitLongTerm (← Read.ue "max_long_term_frame_idx_plus1")
  | 5 => return .unmarkAll
  | _ => return .markCurrentLongTerm (← Read.ue "long_term_frame_idx")

/-- The elements of an operation: its code and its operands. -/
def elements (op : MemoryManagementOp) : List Element :=
  .ue op.code ::
  match op with
  | unmarkShortTerm differenceOfPicNumsMinus1 => [.ue differenceOfPicNumsMinus1]
  | unmarkLongTerm longTermPicNum => [.ue longTermPicNum]
  | assignLongTerm differenceOfPicNumsMinus1 longTermFrameIdx =>
    [.ue differenceOfPicNumsMinus1, .ue longTermFrameIdx]
  | limitLongTerm maxLongTermFrameIdxPlus1 => [.ue maxLongTermFrameIdxPlus1]
  | unmarkAll => []
  | markCurrentLongTerm longTermFrameIdx => [.ue longTermFrameIdx]

end MemoryManagementOp

namespace DecRefPicMarking

/-- The most operations of a picture. -/
def maxOperations : Nat := 66

/-- The greatest code of an operation. -/
def maxCode : Nat := 6

/-- The code of the next operation, 0 at the close. -/
def readCode : Read Nat := do
  let code ← Read.ue "memory_management_control_operation"
  if maxCode < code then
    throw (.illegal "memory_management_control_operation" code .unstated)
  return code

/-- The operations up to the close, `budget` at most. -/
def readOperations : (budget : Nat) → Read (List MemoryManagementOp)
  | 0 => do
    let code ← readCode
    if code = 0 then return []
    throw (.illegal "memory_management_control_operation" code
      (.countAtMost maxOperations "operations"))
  | budget + 1 => do
    let code ← readCode
    if code = 0 then return []
    let first ← MemoryManagementOp.readOperands code
    return first :: (← readOperations budget)

/-- The marking of a picture that is or is not an instantaneous refresh. -/
def read (idr : Bool) : Read DecRefPicMarking := do
  if idr then
    return .idr (← Read.flag "no_output_of_prior_pics_flag")
      (← Read.flag "long_term_reference_flag")
  if ← Read.flag "adaptive_ref_pic_marking_mode_flag" then
    return .adaptive (← readOperations maxOperations)
  return .slidingWindow

/-- The elements of a marking. -/
def elements : DecRefPicMarking → List Element
  | idr noOutputOfPriorPics longTermReference =>
    [.flag noOutputOfPriorPics, .flag longTermReference]
  | slidingWindow => [.flag false]
  | adaptive operations =>
    .flag true :: operations.flatMap MemoryManagementOp.elements ++ [.ue 0]

end DecRefPicMarking

end H264
