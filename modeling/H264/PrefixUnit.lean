import H264.Bits.Element
import H264.Nal.Unit

/-!
# Prefix units

The unit before a base layer slice that carries the header extension the slice itself has no room
for. In scalable streams it may also mark base pictures; in multiview streams it has no payload.
-/

namespace H264

/-- One operation on the base pictures kept for reference. -/
inductive BaseMarkingOp
  | unmarkShortTerm (differenceOfBasePicNumsMinus1 : Nat)
  | unmarkLongTerm (longTermBasePicNum : Nat)
deriving DecidableEq, Repr, Inhabited

/-- What a picture does to the base pictures kept for reference (G.7.3.3.5). -/
inductive BaseMarking
  | slidingWindow
  | adaptive (operations : List BaseMarkingOp)
deriving DecidableEq, Repr, Inhabited

/-- What the prefix unit of a scalable stream says of the base picture. -/
structure RefBasePic where
  store : Bool
  marking : Option BaseMarking
  additionalExtension : Bool
deriving DecidableEq, Repr, Inhabited

/-- A prefix unit. -/
structure PrefixUnit where
  header : NalHeader
  extension : Option HeaderExtension
  refBasePic : Option RefBasePic
deriving DecidableEq, Repr, Inhabited

/-- The elements of one operation. -/
def BaseMarkingOp.elements : BaseMarkingOp → List Element
  | unmarkShortTerm differenceOfBasePicNumsMinus1 => [.ue 1, .ue differenceOfBasePicNumsMinus1]
  | unmarkLongTerm longTermBasePicNum => [.ue 2, .ue longTermBasePicNum]

namespace BaseMarking

/-- The operations up to the code 0 that closes them, `budget` at most. -/
def readOperations : (budget : Nat) → Read (List BaseMarkingOp)
  | 0 => throw (.truncated "memory_management_base_control_operation")
  | budget + 1 => do
    match ← Read.ue "memory_management_base_control_operation" with
    | 0 => return []
    | 1 =>
      let first := .unmarkShortTerm (← Read.ue "difference_of_base_pic_nums_minus1")
      return first :: (← readOperations budget)
    | 2 =>
      let first := .unmarkLongTerm (← Read.ue "long_term_base_pic_num")
      return first :: (← readOperations budget)
    | code => throw (.illegal "memory_management_base_control_operation" code .unstated)

/-- The marking; an operation fills a bit at least, so there are not more of them than bits. -/
def read : Read BaseMarking := do
  if ← Read.flag "adaptive_ref_base_pic_marking_mode_flag" then
    return .adaptive (← readOperations ((← get).bitsLeft + 1))
  return .slidingWindow

/-- The elements of a marking. -/
def elements : BaseMarking → List Element
  | slidingWindow => [.flag false]
  | adaptive operations =>
    .flag true :: operations.flatMap BaseMarkingOp.elements ++ [.ue 0]

end BaseMarking

/-- What follows a scalable header extension; reserved bits before the end are passed over. -/
def RefBasePic.read (extension : SvcHeaderExtension) : Read RefBasePic := do
  let store ← Read.flag "store_ref_base_pic_flag"
  let marking ← Read.optional ((store || extension.useRefBasePicFlag) && !extension.idrFlag)
    BaseMarking.read
  let additionalExtension ← Read.flag "additional_prefix_nal_unit_extension_flag"
  if additionalExtension then Read.skipToTrailing
  Read.finishRbsp
  return { store, marking, additionalExtension }

/-- The elements of what follows a scalable header extension. -/
def RefBasePic.elements (base : RefBasePic) : List Element :=
  [.flag base.store] ++ Element.sent BaseMarking.elements base.marking ++
  [.flag base.additionalExtension]

namespace PrefixUnit

/-- The prefix unit in a unit. Only a scalable one that is kept for reference has a payload. -/
def ofUnit (unit : NalUnit) : Except Error PrefixUnit := do
  let header ← unit.checkedHeader
  let extension ← unit.headerExtension
  match extension with
  | some (.svc fields) =>
    if header.nalRefIdc = 0 then return { header, extension, refBasePic := none }
    return { header, extension, refBasePic := some (← unit.readRbsp (RefBasePic.read fields)) }
  | _ => return { header, extension, refBasePic := none }

end PrefixUnit

end H264
