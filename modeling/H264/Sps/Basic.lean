import H264.Nal.Unit
import H264.Sps.Chroma
import H264.Sps.Level
import H264.Sps.PicOrderCnt
import H264.Sps.Vui

/-!
# Sequence parameter sets

What all pictures of a sequence share (7.3.2.1.1): profile and level, frame size, the widths of
frame numbers and order counts, and the usability information. `SeqParameterSet.read` also checks
the rules that join several fields: cropping leaves something of the picture, and the announced
buffering fits the level.
-/

namespace H264

/-! ## Identifiers -/

/-- The greatest identifier of a sequence parameter set. -/
def maxSpsId : Nat := 31

/-- The identifier of a sequence parameter set. -/
def readSpsId : Read Nat :=
  Read.ueMax "seq_parameter_set_id" maxSpsId

/-- A number as the identifier of a sequence parameter set. -/
def checkSpsId (id : Int) : Except Error Nat :=
  if 0 ≤ id ∧ id ≤ maxSpsId then .ok id.toNat
  else .error (.illegal "seq_parameter_set_id" id .unstated)

/-! ## Fields -/

/-- The margins that are cut off, in units that the chroma format gives. -/
structure FrameCropping where
  left : Nat
  right : Nat
  top : Nat
  bottom : Nat
deriving DecidableEq, Repr, Inhabited

/-- The margins. -/
def FrameCropping.read : Read FrameCropping :=
  return {
    left := ← Read.ue "frame_crop_left_offset"
    right := ← Read.ue "frame_crop_right_offset"
    top := ← Read.ue "frame_crop_top_offset"
    bottom := ← Read.ue "frame_crop_bottom_offset" }

/-- The elements of the margins. -/
def FrameCropping.elements (crop : FrameCropping) : List Element :=
  [.ue crop.left, .ue crop.right, .ue crop.top, .ue crop.bottom]

/-- A sequence parameter set. -/
structure SeqParameterSet where
  profileIdc : Nat
  constraintFlags : ConstraintFlags
  levelIdc : Nat
  id : Nat
  chroma : ChromaInfo
  log2MaxFrameNumMinus4 : Nat
  picOrderCnt : PicOrderCnt
  maxNumRefFrames : Nat
  gapsInFrameNumAllowed : Bool
  picWidthInMbsMinus1 : Nat
  picHeightInMapUnitsMinus1 : Nat
  frameMbsOnly : Bool
  mbAdaptiveFrameField : Bool
  direct8x8Inference : Bool
  frameCropping : Option FrameCropping
  vui : Option VuiParameters
deriving DecidableEq, Repr, Inhabited

namespace SeqParameterSet

/-- The fields in the order in which they are sent. -/
def readFields : Read SeqParameterSet := do
  let profileIdc ← Read.u8 "profile_idc"
  let constraintFlags := { value := ← Read.u8 "constraint_flags" }
  let levelIdc ← Read.u8 "level_idc"
  let id ← readSpsId
  let chroma ← ChromaInfo.read profileIdc
  let log2MaxFrameNumMinus4 ← Read.ueMax "log2_max_frame_num_minus4" 12
  let picOrderCnt ← PicOrderCnt.read
  let maxNumRefFrames ← Read.ue "max_num_ref_frames"
  let gapsInFrameNumAllowed ← Read.flag "gaps_in_frame_num_value_allowed_flag"
  let picWidthInMbsMinus1 ← Read.ue "pic_width_in_mbs_minus1"
  let picHeightInMapUnitsMinus1 ← Read.ue "pic_height_in_map_units_minus1"
  let frameMbsOnly ← Read.flag "frame_mbs_only_flag"
  let mbAdaptiveFrameField ←
    if frameMbsOnly then pure false else Read.flag "mb_adaptive_frame_field_flag"
  let direct8x8Inference ← Read.flag "direct_8x8_inference_flag"
  let frameCropping ← Read.flagged "frame_cropping_flag" FrameCropping.read
  let vui ← Read.flagged "vui_parameters_present_flag" VuiParameters.read
  return { profileIdc, constraintFlags, levelIdc, id, chroma, log2MaxFrameNumMinus4,
           picOrderCnt, maxNumRefFrames, gapsInFrameNumAllowed, picWidthInMbsMinus1,
           picHeightInMapUnitsMinus1, frameMbsOnly, mbAdaptiveFrameField, direct8x8Inference,
           frameCropping, vui }

/-- The elements in the order in which they are sent. -/
def elements (sps : SeqParameterSet) : List Element :=
  [.u 8 sps.profileIdc, .u 8 sps.constraintFlags.value, .u 8 sps.levelIdc, .ue sps.id] ++
  sps.chroma.elements sps.profileIdc ++
  [.ue sps.log2MaxFrameNumMinus4] ++
  sps.picOrderCnt.elements ++
  [.ue sps.maxNumRefFrames, .flag sps.gapsInFrameNumAllowed, .ue sps.picWidthInMbsMinus1,
   .ue sps.picHeightInMapUnitsMinus1, .flag sps.frameMbsOnly] ++
  (if sps.frameMbsOnly then [] else [.flag sps.mbAdaptiveFrameField]) ++
  [.flag sps.direct8x8Inference] ++
  Element.flagged FrameCropping.elements sps.frameCropping ++
  Element.flagged VuiParameters.elements sps.vui

/-! ## Derived values -/

section Derived

variable (sps : SeqParameterSet)

/-- The profile. -/
def profile : Profile := .ofIdc sps.profileIdc

/-- The level. -/
def level : Level := .select sps.profileIdc sps.constraintFlags sps.levelIdc

/-- Bits of a luma sample. -/
def bitDepthLuma : Nat := sps.chroma.bitDepthLumaMinus8 + 8

/-- Bits of a chroma sample. -/
def bitDepthChroma : Nat := sps.chroma.bitDepthChromaMinus8 + 8

/-- How far the luma quantiser reaches below zero. -/
def qpBdOffsetY : Nat := 6 * sps.chroma.bitDepthLumaMinus8

/-- The width of `frame_num`. -/
def log2MaxFrameNum : Nat := sps.log2MaxFrameNumMinus4 + 4

/-- The number of values of `frame_num`. -/
def maxFrameNum : Nat := 1 <<< sps.log2MaxFrameNum

/-- The width of a picture in macroblocks. -/
def picWidthInMbs : Nat := sps.picWidthInMbsMinus1 + 1

/-- The height of a picture in map units, which are pairs of macroblocks where fields occur. -/
def picHeightInMapUnits : Nat := sps.picHeightInMapUnitsMinus1 + 1

/-- The size of a picture in map units. -/
def picSizeInMapUnits : Nat := sps.picWidthInMbs * sps.picHeightInMapUnits

/-- Macroblock rows of a frame for each row of map units. -/
def fieldFactor : Nat := if sps.frameMbsOnly then 1 else 2

/-- The height of a frame in macroblocks. -/
def frameHeightInMbs : Nat := sps.fieldFactor * sps.picHeightInMapUnits

/-- The most frames that any decoded picture buffer holds. -/
def maxDpbFramesOfAnyLevel : Nat := 16

/-- `MaxDpbFrames`: the frames that the decoded picture buffer of the level holds. -/
def maxDpbFrames : Nat :=
  if Profile.intraIdcs.contains sps.profileIdc ∧ sps.constraintFlags.flag 3 then 0
  else match sps.level.maxDpbMbs with
    | none => maxDpbFramesOfAnyLevel
    | some capacity =>
      min (capacity / (sps.picWidthInMbs * sps.frameHeightInMbs)) maxDpbFramesOfAnyLevel

/-- The luma samples of one unit of cropping, horizontally. -/
def cropUnitX : Nat :=
  if sps.chroma.arrayType = 0 then 1 else sps.chroma.format.subWidth

/-- The luma samples of one unit of cropping, vertically. -/
def cropUnitY : Nat :=
  if sps.chroma.arrayType = 0 then sps.fieldFactor
  else sps.chroma.format.subHeight * sps.fieldFactor

/-- Width and height of a picture in luma samples after cropping, which has to leave something. -/
def pixelDimensions : Except Error (Nat × Nat) :=
  let width := sps.picWidthInMbs * 16
  let height := sps.frameHeightInMbs * 16
  match sps.frameCropping with
  | none => .ok (width, height)
  | some crop =>
    let cropX := sps.cropUnitX * (crop.left + crop.right)
    let cropY := sps.cropUnitY * (crop.top + crop.bottom)
    if width ≤ cropX then
      .error (.illegal "frame_crop_left_offset" crop.left (.keepsColumn width))
    else if height ≤ cropY then
      .error (.illegal "frame_crop_top_offset" crop.top (.keepsRow height))
    else .ok (width - cropX, height - cropY)

/-- Frames per second in lowest terms, where the sequence tells its clock. -/
def frameRate? : Option (Nat × Nat) :=
  (sps.vui.bind VuiParameters.timing).bind TimingInfo.frameRate?

/-- The weight matrices of the sequence. -/
def scalingMatrices : List Weights :=
  match sps.chroma.scalingMatrix with
  | none => Weights.flat sps.chroma.format.scalingListCount
  | some matrix => matrix.resolve none

end Derived

/-! ## Reading -/

/-- Check that announced limits fit the level and each other. -/
def checkRestrictions (sps : SeqParameterSet) (limits : BitstreamRestrictions) :
    Except Error Unit := do
  let frames := sps.maxDpbFrames
  if frames < limits.maxDecFrameBuffering then
    throw (.illegal "max_dec_frame_buffering" limits.maxDecFrameBuffering
      (.fitsPictureBuffer sps.profile.symbol sps.level.label frames))
  if limits.maxDecFrameBuffering < limits.maxNumReorderFrames then
    throw (.illegal "max_num_reorder_frames" limits.maxNumReorderFrames .reordersWithinBuffer)

/-- Check the rules that join several fields. -/
def check (sps : SeqParameterSet) : Except Error Unit := do
  let _ ← sps.pixelDimensions
  match sps.vui.bind VuiParameters.restrictions with
  | none => return
  | some limits => sps.checkRestrictions limits

/-- The fields, checked, without what closes them. -/
def readData : Read SeqParameterSet := do
  let sps ← readFields
  Read.ofExcept sps.check
  return sps

/-- A whole sequence parameter set. -/
def read : Read SeqParameterSet := do
  let sps ← readData
  Read.finishRbsp
  return sps

/-- The sequence parameter set in a unit. -/
def ofUnit (unit : NalUnit) : Except Error SeqParameterSet :=
  unit.readRbsp read

end SeqParameterSet

end H264
