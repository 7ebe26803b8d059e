import H264.ParamSets
import H264.Slice.Marking
import H264.Slice.PredWeight
import H264.Slice.RefPicList

/-!
# Slice headers

The header of a coded slice (7.3.3), also in its multiview form. A slice names its picture parameter
set and through it the sequence; multiview slices find the sequence among the subset parameter sets.
Which fields are sent depends on both.
-/

namespace H264

/-! ## Fields -/

/-- What a slice sends of its picture's order count. -/
inductive SlicePicOrder
  | lowBits (lsb : Nat) (deltaBottom : Option Int)
  | offsets (first second : Int)
  | inferred
deriving DecidableEq, Repr, Inhabited

/-- How block edges are smoothed. -/
structure Deblocking where
  disableIdc : Nat := 0
  alphaC0OffsetDiv2 : Int := 0
  betaOffsetDiv2 : Int := 0
deriving DecidableEq, Repr, Inhabited

/-- How many pictures of each reference list are in use, less one; `overridden` if the slice says
so itself. -/
structure RefCounts where
  overridden : Bool
  l0Minus1 : Nat
  l1Minus1 : Nat
deriving DecidableEq, Repr, Inhabited

/-- The quantiser of switching slices. -/
structure SwitchingQuantiser where
  spForSwitch : Bool := false
  qsDelta : Option Int := none
deriving DecidableEq, Repr, Inhabited

/-- The header of a slice. -/
structure SliceHeader where
  firstMb : Nat
  type : SliceType
  ppsId : Nat
  colourPlaneId : Option Nat
  frameNum : Nat
  picStructure : PictureStructure
  idr : Bool
  idrPicId : Option Nat
  picOrder : SlicePicOrder
  redundantPicCnt : Option Nat
  directSpatialMvPred : Option Bool
  refCounts : RefCounts
  refPicListModification : RefPicListModification
  predWeightTable : Option PredWeightTable
  marking : Option DecRefPicMarking
  cabacInitIdc : Option Nat
  qpDelta : Int
  switching : SwitchingQuantiser
  deblocking : Deblocking
  groupChangeCycle : Option Nat
  qp : Int
deriving DecidableEq, Repr, Inhabited

/-! ## The form of a slice -/

/-- What the unit's header says of its slice. -/
structure SliceForm where
  unitType : UnitType
  multiview : Bool
  idr : Bool
  isReference : Bool
deriving DecidableEq, Repr, Inhabited

namespace SliceForm

/-- The form that a unit's header and its extension give. -/
def ofHeader (header : NalHeader) (extension : Option HeaderExtension) :
    Except Error SliceForm :=
  let form (multiview idr : Bool) : SliceForm :=
    { unitType := header.unitType, multiview, idr, isReference := header.nalRefIdc != 0 }
  match header.unitType, extension with
  | .nonIdrSlice, _ => .ok (form false false)
  | .idrSlice, _ => .ok (form false true)
  | .sliceExtension, some (.mvc fields) => .ok (form true (!fields.nonIdrFlag))
  | .sliceExtensionDepthView, some (.mvc fields) => .ok (form true (!fields.nonIdrFlag))
  | .sliceExtension, some (.svc _) | .sliceExtensionDepthView, some (.svc _) =>
    .error (.field "slice_header"
      (.unsupported "scalable (SVC) slice extensions are not decoded"))
  | .sliceExtension, none | .sliceExtensionDepthView, none =>
    .error (.misuse (.noHeaderExtension header.unitType))
  | type, _ => .error (.misuse (.noSliceHeader type))

end SliceForm

namespace SliceHeader

/-! ## Evolving slice groups -/

/-- The least `bits` from a start on with `size + rate ≤ rate <<< bits`, tried `fuel` times. -/
def leastWidth (size rate : Nat) : (fuel bits : Nat) → Nat
  | 0, bits => bits
  | fuel + 1, bits =>
    if size + rate ≤ rate <<< bits then bits else leastWidth size rate fuel (bits + 1)

/-- The width of the change cycle, the binary logarithm of `size / rate + 1`, rounded up. -/
def groupChangeCycleBits (size rate : Nat) : Nat :=
  leastWidth size rate (Nat.log2 size + 1) 0

/-- The greatest change cycle, `size / rate` rounded up. -/
def maxGroupChangeCycle (size rate : Nat) : Nat :=
  (size + rate - 1) / rate

/-! ## Parts of the header -/

/-- The picture parameter set of an identifier and the sequence it names. -/
def findParamSets (sets : ParamSets) (multiview : Bool) (ppsId : Nat) :
    Except Error (PicParameterSet × SeqParameterSet) :=
  match sets.pps? ppsId with
  | none => .error (.unresolved "pic_parameter_set_id" ppsId)
  | some pps =>
    let sps := if multiview then (sets.subsetSps? pps.spsId).map SubsetSps.sps
      else sets.sps? pps.spsId
    match sps with
    | none => .error (.unresolved "seq_parameter_set_id" pps.spsId)
    | some sps => .ok (pps, sps)

/-- The type of the slice; an instantaneous refresh outside multiview refers to nothing. -/
def readType (form : SliceForm) : Read SliceType := do
  let type ← Read.ofExcept (SliceType.ofId (← Read.ue "slice_type"))
  if form.unitType = .idrSlice ∧ !type.isIntra then
    throw (.field "slice_type" (.illegal (.symbol type.family.symbol) .intraInIdr))
  return type

/-- The colour plane, where the planes are coded apart. -/
def readColourPlaneId : Read Nat := do
  let id ← Read.bits 2 "colour_plane_id"
  if 2 < id then throw (.illegal "colour_plane_id" id .unstated)
  return id

/-- Whether the slice belongs to a frame or a field. -/
def readStructure (sps : SeqParameterSet) : Read PictureStructure := do
  if sps.frameMbsOnly then return .frame
  if ← Read.flag "field_pic_flag" then
    return if ← Read.flag "bottom_field_flag" then .bottomField else .topField
  return .frame

/-- The order count, with the bottom field's part if it is sent. -/
def readPicOrder (coding : PicOrderCnt) (bottomSent : Bool) : Read SlicePicOrder := do
  match coding with
  | .lowBits log2MaxLsbMinus4 =>
    let lsb ← Read.bits (log2MaxLsbMinus4 + 4) "pic_order_cnt_lsb"
    return .lowBits lsb
      (← Read.optional bottomSent (Read.se "delta_pic_order_cnt_bottom"))
  | .offsets false .. =>
    let first ← Read.se "delta_pic_order_cnt[0]"
    let second ← if bottomSent then Read.se "delta_pic_order_cnt[1]" else pure 0
    return .offsets first second
  | .offsets true .. | .decodingOrder => return .inferred

/-- The number of pictures in use: the parameter set's unless the slice overrides it, to at most 32
for a field and 16 for a frame. -/
def readRefCounts (pps : PicParameterSet) (type : SliceType) (picStructure : PictureStructure) :
    Read RefCounts := do
  let l0Default := pps.numRefIdxL0DefaultActiveMinus1
  let l1Default := pps.numRefIdxL1DefaultActiveMinus1
  let overridden ← if type.usesL0 then Read.flag "num_ref_idx_active_override_flag" else pure false
  if overridden then
    let maximum := if picStructure = .frame then 15 else 31
    let l0Minus1 ← Read.ueMax "num_ref_idx_l0_active_minus1" maximum
    let l1Minus1 ←
      if type.usesL1 then Read.ueMax "num_ref_idx_l1_active_minus1" maximum else pure l1Default
    return { overridden, l0Minus1, l1Minus1 }
  return { overridden, l0Minus1 := l0Default, l1Minus1 := l1Default }

/-- Whether the slice sends prediction weights. -/
def sendsWeights (pps : PicParameterSet) (type : SliceType) : Bool :=
  match type.family with
  | .p | .sp => pps.weightedPred
  | .b => pps.weightedBipredIdc == 1
  | .i | .si => false

/-- The quantiser's difference, with the quantiser that it gives. -/
def readQp (pps : PicParameterSet) (sps : SeqParameterSet) : Read (Int × Int) := do
  let delta ← Read.se "slice_qp_delta"
  let qp := 26 + pps.picInitQpMinus26 + delta
  let least : Int := -(sps.qpBdOffsetY : Int)
  unless least ≤ qp ∧ qp ≤ maxSliceQp do
    throw (.illegal "slice_qp_delta" delta (.sliceQp qp least))
  return (delta, qp)

/-- The switching quantiser's difference. -/
def readQsDelta (pps : PicParameterSet) : Read Int := do
  let delta ← Read.se "slice_qs_delta"
  let qs := 26 + pps.picInitQsMinus26 + delta
  unless 0 ≤ qs ∧ qs ≤ maxSliceQp do
    throw (.illegal "slice_qs_delta" delta (.sliceQs qs))
  return delta

/-- The quantiser of switching slices; other slices send nothing. -/
def readSwitching (pps : PicParameterSet) (type : SliceType) : Read SwitchingQuantiser := do
  match type.family with
  | .sp =>
    let spForSwitch ← Read.flag "sp_for_switch_flag"
    return { spForSwitch, qsDelta := some (← readQsDelta pps) }
  | .si => return { qsDelta := some (← readQsDelta pps) }
  | .p | .b | .i => return {}

/-- The smoothing of block edges; offsets are sent unless it is off. -/
def readDeblocking : Read Deblocking := do
  let disableIdc ← Read.ueMax "disable_deblocking_filter_idc" 2
  if disableIdc = 1 then return { disableIdc }
  let alphaC0OffsetDiv2 ← Read.seRange "slice_alpha_c0_offset_div2" (-6) 6
  let betaOffsetDiv2 ← Read.seRange "slice_beta_offset_div2" (-6) 6
  return { disableIdc, alphaC0OffsetDiv2, betaOffsetDiv2 }

/-- How far evolving slice groups have changed, for groups that change by `rate`. -/
def readGroupChangeCycle (sps : SeqParameterSet) (rate : Nat) : Read Nat := do
  let size := sps.picSizeInMapUnits
  let cycle ← Read.bits (groupChangeCycleBits size rate) "slice_group_change_cycle"
  let maximum := maxGroupChangeCycle size rate
  if maximum < cycle then
    throw (.illegal "slice_group_change_cycle" cycle (.atMost maximum))
  return cycle

/-! ## The header -/

/-- What follows the parameter sets' identifier. -/
def readBody (form : SliceForm) (firstMb : Nat) (type : SliceType) (pps : PicParameterSet)
    (sps : SeqParameterSet) (ppsId : Nat) : Read SliceHeader := do
  let colourPlaneId ← Read.optional sps.chroma.separateColourPlane readColourPlaneId
  let frameNum ← Read.bits sps.log2MaxFrameNum "frame_num"
  let picStructure ← readStructure sps
  let idrPicId ← Read.optional form.idr (Read.ueMax "idr_pic_id" 65535)
  let picOrder ← readPicOrder sps.picOrderCnt
    (pps.bottomFieldPicOrderInFramePresent && picStructure == .frame)
  let redundantPicCnt ←
    Read.optional pps.redundantPicCntPresent (Read.ueMax "redundant_pic_cnt" 127)
  let directSpatialMvPred ←
    Read.optional type.usesL1 (Read.flag "direct_spatial_mv_pred_flag")
  let refCounts ← readRefCounts pps type picStructure
  let refPicListModification ← RefPicListModification.read type form.multiview
  let predWeightTable ← Read.optional (sendsWeights pps type)
    (PredWeightTable.read type sps.chroma.hasPlanes (refCounts.l0Minus1 + 1)
      (refCounts.l1Minus1 + 1))
  let marking ← Read.optional form.isReference (DecRefPicMarking.read form.idr)
  let cabacInitIdc ← Read.optional (pps.entropyCodingMode && !type.isIntra)
    (Read.ueMax "cabac_init_idc" 2)
  let (qpDelta, qp) ← readQp pps sps
  let switching ← readSwitching pps type
  let deblocking ← if pps.deblockingFilterControlPresent then readDeblocking else pure {}
  let groupChangeCycle ←
    match pps.sliceGroups.bind SliceGroups.changeRate? with
    | some rate => some <$> readGroupChangeCycle sps rate
    | none => pure none
  return { firstMb, type, ppsId, colourPlaneId, frameNum, picStructure, idr := form.idr, idrPicId,
           picOrder, redundantPicCnt, directSpatialMvPred, refCounts, refPicListModification,
           predWeightTable, marking, cabacInitIdc, qpDelta, switching, deblocking,
           groupChangeCycle, qp }

/-- The elements of a picture's structure. -/
def structureElements (sps : SeqParameterSet) (picStructure : PictureStructure) : List Element :=
  if sps.frameMbsOnly then []
  else match picStructure with
    | .frame => [.flag false]
    | .topField => [.flag true, .flag false]
    | .bottomField => [.flag true, .flag true]

/-- The elements of an order count, with the bottom field's part if it is sent. -/
def picOrderElements (coding : PicOrderCnt) (bottomSent : Bool) (order : SlicePicOrder) :
    List Element :=
  match coding, order with
  | .lowBits log2MaxLsbMinus4, .lowBits lsb deltaBottom =>
    .u (log2MaxLsbMinus4 + 4) lsb :: Element.sent (fun delta => [.se delta]) deltaBottom
  | _, .offsets first second => .se first :: if bottomSent then [.se second] else []
  | _, _ => []

/-- The elements of the number of pictures in use. -/
def refCountElements (type : SliceType) (counts : RefCounts) : List Element :=
  (if type.usesL0 then [.flag counts.overridden] else []) ++
  if counts.overridden then
    .ue counts.l0Minus1 :: if type.usesL1 then [.ue counts.l1Minus1] else []
  else []

/-- The elements of the quantiser of switching slices. -/
def switchingElements (type : SliceType) (switching : SwitchingQuantiser) : List Element :=
  (if type.family = .sp then [.flag switching.spForSwitch] else []) ++
  Element.sent (fun delta => [.se delta]) switching.qsDelta

/-- The elements of the smoothing of block edges. -/
def deblockingElements (deblocking : Deblocking) : List Element :=
  .ue deblocking.disableIdc ::
  if deblocking.disableIdc = 1 then []
  else [.se deblocking.alphaC0OffsetDiv2, .se deblocking.betaOffsetDiv2]

/-- The elements of a change cycle, in the width that the sizes of groups and picture give. -/
def groupChangeCycleElements (pps : PicParameterSet) (sps : SeqParameterSet) (cycle : Nat) :
    List Element :=
  match pps.sliceGroups.bind SliceGroups.changeRate? with
  | some rate => [.u (groupChangeCycleBits sps.picSizeInMapUnits rate) cycle]
  | none => []

/-- The elements of a header in the order in which they are sent. -/
def elements (pps : PicParameterSet) (sps : SeqParameterSet) (header : SliceHeader) :
    List Element :=
  [.ue header.firstMb, .ue header.type.id, .ue header.ppsId] ++
  Element.sent (fun id => [.u 2 id]) header.colourPlaneId ++
  [.u sps.log2MaxFrameNum header.frameNum] ++
  structureElements sps header.picStructure ++
  Element.sent (fun id => [.ue id]) header.idrPicId ++
  picOrderElements sps.picOrderCnt
    (pps.bottomFieldPicOrderInFramePresent && header.picStructure == .frame) header.picOrder ++
  Element.sent (fun count => [.ue count]) header.redundantPicCnt ++
  Element.sent (fun spatial => [.flag spatial]) header.directSpatialMvPred ++
  refCountElements header.type header.refCounts ++
  header.refPicListModification.elements header.type ++
  Element.sent (PredWeightTable.elements sps.chroma.hasPlanes) header.predWeightTable ++
  Element.sent DecRefPicMarking.elements header.marking ++
  Element.sent (fun idc => [.ue idc]) header.cabacInitIdc ++
  [.se header.qpDelta] ++
  switchingElements header.type header.switching ++
  (if pps.deblockingFilterControlPresent then deblockingElements header.deblocking else []) ++
  Element.sent (groupChangeCycleElements pps sps) header.groupChangeCycle

/-- The header of a slice of a given form. -/
def readAs (form : SliceForm) (sets : ParamSets) : Read SliceHeader := do
  let firstMb ← Read.ue "first_mb_in_slice"
  let type ← readType form
  let ppsId ← readPpsId
  let (pps, sps) ← Read.ofExcept (findParamSets sets form.multiview ppsId)
  readBody form firstMb type pps sps ppsId

/-- The header of a slice in a unit with the given header. -/
def read (sets : ParamSets) (header : NalHeader) (extension : Option HeaderExtension) :
    Read SliceHeader := do
  readAs (← Read.ofExcept (SliceForm.ofHeader header extension)) sets

/-- The slice header in a unit. -/
def ofUnit (sets : ParamSets) (unit : NalUnit) : Except Error SliceHeader := do
  let data ← unit.rbsp
  let header ← unit.checkedHeader
  let extension ← unit.headerExtension
  Read.value (read sets header extension) data

end SliceHeader

end H264
