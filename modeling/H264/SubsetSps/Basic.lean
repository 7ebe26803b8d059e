import H264.SubsetSps.Mvc
import H264.SubsetSps.Svc

/-!
# Subset sequence parameter sets

A sequence parameter set followed by the extension of a scalable or multiview profile (7.3.2.1.3).
Their identifiers are apart from those of ordinary sequence parameter sets. Reading stops early
where parts follow that are not decoded.
-/

namespace H264

/-- The extension of a subset sequence parameter set; that of depth is not decoded. -/
inductive SubsetExtension
  | svc (fields : SvcSpsExtension)
  | mvc (fields : MvcSpsExtension) (vuiParametersPresent : Bool)
  | depth
deriving DecidableEq, Repr, Inhabited

/-- A subset sequence parameter set. -/
structure SubsetSps where
  sps : SeqParameterSet
  extension : Option SubsetExtension := none
  additionalExtension2 : Bool := false
deriving DecidableEq, Repr, Inhabited

namespace SubsetExtension

/-- Whether parts follow that are not decoded. -/
def hasUndecodedTail : SubsetExtension → Bool
  | svc fields => fields.vuiParametersPresent
  | mvc _ vuiParametersPresent => vuiParametersPresent
  | depth => true

/-- The extension that the profile of a sequence asks for, after a bit that is passed over. -/
def read (sps : SeqParameterSet) : Read (Option SubsetExtension) := do
  if Profile.scalableIdcs.contains sps.profileIdc then
    let _ ← Read.flag "bit_equal_to_one"
    return some (.svc (← SvcSpsExtension.read sps.chroma.arrayType))
  else if Profile.multiviewIdcs.contains sps.profileIdc then
    let _ ← Read.flag "bit_equal_to_one"
    return some (.mvc (← MvcSpsExtension.read) (← Read.flag "mvc_vui_parameters_present_flag"))
  else if Profile.depthIdcs.contains sps.profileIdc then
    let _ ← Read.flag "bit_equal_to_one"
    return some .depth
  else return none

/-- The elements of the extension of a sequence, after a one bit. -/
def elements (sps : SeqParameterSet) (extension : SubsetExtension) : List Element :=
  .flag true ::
  match extension with
  | svc fields => fields.elements sps.chroma.arrayType
  | mvc fields vuiParametersPresent => fields.elements ++ [.flag vuiParametersPresent]
  | depth => []

end SubsetExtension

namespace SubsetSps

/-- The identifier. -/
def id (subset : SubsetSps) : Nat := subset.sps.id

/-- The flag for further extensions and the end, with whatever lies between passed over. -/
def readTail : Read Bool := do
  let additional ← Read.flag "additional_extension2_flag"
  if additional then Read.skipToTrailing
  Read.finishRbsp
  return additional

/-- A subset sequence parameter set, as far as it is decoded. -/
def read : Read SubsetSps := do
  let sps ← SeqParameterSet.readData
  let extension ← SubsetExtension.read sps
  if extension.any SubsetExtension.hasUndecodedTail then return { sps, extension }
  return { sps, extension, additionalExtension2 := ← readTail }

/-- The elements in the order in which they are sent, up to the flag for further extensions. -/
def elements (subset : SubsetSps) : List Element :=
  subset.sps.elements ++
  Element.sent (SubsetExtension.elements subset.sps) subset.extension ++
  [.flag subset.additionalExtension2]

/-- The subset sequence parameter set in a unit. -/
def ofUnit (unit : NalUnit) : Except Error SubsetSps :=
  unit.readRbsp read

end SubsetSps

end H264
