import H264.Pps.SliceGroup
import H264.Sps.Basic

/-!
# Picture parameter sets

What the slices of a picture share (7.3.2.2). A picture parameter set names its sequence parameter
set by number only; reading one needs the sequence's chroma format just where 8x8 scaling lists are
sent, since it decides how many there are.
-/

namespace H264

/-! ## Identifiers -/

/-- The greatest identifier of a picture parameter set. -/
def maxPpsId : Nat := 255

/-- The identifier of a picture parameter set. -/
def readPpsId : Read Nat :=
  Read.ueMax "pic_parameter_set_id" maxPpsId

/-- A number as the identifier of a picture parameter set. -/
def checkPpsId (id : Int) : Except Error Nat :=
  if 0 ≤ id ∧ id ≤ maxPpsId then .ok id.toNat
  else .error (.illegal "pic_parameter_set_id" id .unstated)

/-! ## Fields -/

/-- The fields at the end that may be absent. -/
structure PicScalingExtension where
  transform8x8Mode : Bool
  scalingMatrix : Option ScalingMatrix
  secondChromaQpIndexOffset : Int
deriving DecidableEq, Repr, Inhabited

/-- A picture parameter set. -/
structure PicParameterSet where
  id : Nat
  spsId : Nat
  entropyCodingMode : Bool
  bottomFieldPicOrderInFramePresent : Bool
  sliceGroups : Option SliceGroups
  numRefIdxL0DefaultActiveMinus1 : Nat
  numRefIdxL1DefaultActiveMinus1 : Nat
  weightedPred : Bool
  weightedBipredIdc : Nat
  picInitQpMinus26 : Int
  picInitQsMinus26 : Int
  chromaQpIndexOffset : Int
  deblockingFilterControlPresent : Bool
  constrainedIntraPred : Bool
  redundantPicCntPresent : Bool
  extension : Option PicScalingExtension
deriving DecidableEq, Repr, Inhabited

/-- The elements of the fields at the end. -/
def PicScalingExtension.elements (extension : PicScalingExtension) : List Element :=
  [.flag extension.transform8x8Mode] ++
  Element.flagged ScalingMatrix.elements extension.scalingMatrix ++
  [.se extension.secondChromaQpIndexOffset]

/-- The number of scaling lists of a picture. -/
def picScalingListCount (transform8x8Mode : Bool) (format : ChromaFormat) : Nat :=
  if transform8x8Mode then format.scalingListCount else 6

namespace PicParameterSet

/-- The scaling lists, as many as the mode and the sequence with the identifier `spsId` ask for. -/
def readScalingMatrix (findSps : Nat → Option SeqParameterSet) (spsId : Nat)
    (transform8x8Mode : Bool) : Read ScalingMatrix := do
  if transform8x8Mode then
    match findSps spsId with
    | none => throw (.unresolved "seq_parameter_set_id" spsId)
    | some sps => ScalingMatrix.read (picScalingListCount true sps.chroma.format)
  else ScalingMatrix.read (picScalingListCount false .yuv420)

/-- The fields at the end. -/
def readExtension (findSps : Nat → Option SeqParameterSet) (spsId : Nat) :
    Read PicScalingExtension := do
  let transform8x8Mode ← Read.flag "transform_8x8_mode_flag"
  let scalingMatrix ← Read.flagged "pic_scaling_matrix_present_flag"
    (readScalingMatrix findSps spsId transform8x8Mode)
  let secondChromaQpIndexOffset ← Read.seRange "second_chroma_qp_index_offset" (-12) 12
  return { transform8x8Mode, scalingMatrix, secondChromaQpIndexOffset }

/-- The prediction mode of bidirectional slices, one of three. -/
def readWeightedBipredIdc : Read Nat := do
  let idc ← Read.bits 2 "weighted_bipred_idc"
  if 2 < idc then throw (.illegal "weighted_bipred_idc" idc .unstated)
  return idc

/-- A whole picture parameter set. The quantiser may start as far below zero as the greatest bit
depth allows. -/
def read (findSps : Nat → Option SeqParameterSet) : Read PicParameterSet := do
  let id ← readPpsId
  let spsId ← readSpsId
  let entropyCodingMode ← Read.flag "entropy_coding_mode_flag"
  let bottomFieldPicOrderInFramePresent ←
    Read.flag "bottom_field_pic_order_in_frame_present_flag"
  let groupsMinus1 ← Read.ueMax "num_slice_groups_minus1" 7
  let sliceGroups ← Read.optional (groupsMinus1 != 0) (SliceGroups.read groupsMinus1)
  let numRefIdxL0DefaultActiveMinus1 ← Read.ueMax "num_ref_idx_l0_default_active_minus1" 31
  let numRefIdxL1DefaultActiveMinus1 ← Read.ueMax "num_ref_idx_l1_default_active_minus1" 31
  let weightedPred ← Read.flag "weighted_pred_flag"
  let weightedBipredIdc ← readWeightedBipredIdc
  let picInitQpMinus26 ← Read.seRange "pic_init_qp_minus26" (-62) 25
  let picInitQsMinus26 ← Read.seRange "pic_init_qs_minus26" (-26) 25
  let chromaQpIndexOffset ← Read.seRange "chroma_qp_index_offset" (-12) 12
  let deblockingFilterControlPresent ← Read.flag "deblocking_filter_control_present_flag"
  let constrainedIntraPred ← Read.flag "constrained_intra_pred_flag"
  let redundantPicCntPresent ← Read.flag "redundant_pic_cnt_present_flag"
  let extension ← Read.optional (← Read.more) (readExtension findSps spsId)
  Read.finishRbsp
  return { id, spsId, entropyCodingMode, bottomFieldPicOrderInFramePresent, sliceGroups,
           numRefIdxL0DefaultActiveMinus1, numRefIdxL1DefaultActiveMinus1, weightedPred,
           weightedBipredIdc, picInitQpMinus26, picInitQsMinus26, chromaQpIndexOffset,
           deblockingFilterControlPresent, constrainedIntraPred, redundantPicCntPresent,
           extension }

/-- The picture parameter set in a unit. -/
def ofUnit (findSps : Nat → Option SeqParameterSet) (unit : NalUnit) :
    Except Error PicParameterSet :=
  unit.readRbsp (read findSps)

/-- The number of slice groups but one. -/
def sliceGroupCountMinus1 (pps : PicParameterSet) : Nat :=
  (pps.sliceGroups.map fun groups => groups.countMinus1.toNat).getD 0

/-- The elements in the order in which they are sent. -/
def elements (pps : PicParameterSet) : List Element :=
  [.ue pps.id, .ue pps.spsId, .flag pps.entropyCodingMode,
   .flag pps.bottomFieldPicOrderInFramePresent, .ue pps.sliceGroupCountMinus1] ++
  Element.sent SliceGroups.elements pps.sliceGroups ++
  [.ue pps.numRefIdxL0DefaultActiveMinus1, .ue pps.numRefIdxL1DefaultActiveMinus1,
   .flag pps.weightedPred, .u 2 pps.weightedBipredIdc, .se pps.picInitQpMinus26,
   .se pps.picInitQsMinus26, .se pps.chromaQpIndexOffset,
   .flag pps.deblockingFilterControlPresent, .flag pps.constrainedIntraPred,
   .flag pps.redundantPicCntPresent] ++
  Element.sent PicScalingExtension.elements pps.extension

/-! ## Derived values -/

/-- Whether 8x8 transforms are used. -/
def transform8x8Mode (pps : PicParameterSet) : Bool :=
  (pps.extension.map PicScalingExtension.transform8x8Mode).getD false

/-- The second chroma offset, the first where it was not sent. -/
def secondChromaQpIndexOffset (pps : PicParameterSet) : Int :=
  (pps.extension.map PicScalingExtension.secondChromaQpIndexOffset).getD pps.chromaQpIndexOffset

/-- The weight matrices of a picture: its own, falling back to the sequence's where that sent any,
or else the sequence's. -/
def scalingMatrices (pps : PicParameterSet) (sps : SeqParameterSet) : List Weights :=
  match pps.extension.bind PicScalingExtension.scalingMatrix with
  | none => sps.scalingMatrices
  | some matrix => matrix.resolve (sps.chroma.scalingMatrix.map fun _ => sps.scalingMatrices)

end PicParameterSet

end H264
