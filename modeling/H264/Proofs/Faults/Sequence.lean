import H264.Proofs.Faults.Checked
import H264.SubsetSps.Basic

/-!
# Reading sequence parameter sets

A sequence parameter set and its parts, and the extensions of a subset parameter set, fail only with
errors that a stream can cause. What is read besides has fields of moderate width in the slices that
name it: `SeqParameterSet.FieldWidths`.
-/

namespace H264

open Read

/-! ## Usability information -/

theorem AspectRatio.checked_read : Checked AspectRatio.read := by
  unfold AspectRatio.read
  refine .bind (checked_u8 _) fun idc => .ite ?_ (.pure _)
  exact .bind (checked_bits (by decide) _) fun width =>
    .bind (checked_bits (by decide) _) fun height => .pure _

theorem ColourDescription.checked_read : Checked ColourDescription.read := by
  unfold ColourDescription.read
  exact .bind (checked_u8 _) fun primaries => .bind (checked_u8 _) fun transfer =>
    .bind (checked_u8 _) fun matrix => .pure _

theorem VideoSignalType.checked_read : Checked VideoSignalType.read := by
  unfold VideoSignalType.read
  refine .bind (checked_bits (by decide) _) fun format => .bind (checked_flag _) fun full => ?_
  exact .bind (checked_flagged ColourDescription.checked_read _) fun colour => .pure _

theorem ChromaLocation.checked_read : Checked ChromaLocation.read := by
  unfold ChromaLocation.read
  exact .bind (checked_ueMax _ _) fun top => .bind (checked_ueMax _ _) fun bottom => .pure _

theorem TimingInfo.checked_read : Checked TimingInfo.read := by
  unfold TimingInfo.read
  refine .bind (checked_bits (by decide) _) fun units => ?_
  exact .bind (checked_bits (by decide) _) fun scale => .bind (checked_flag _) fun fixed => .pure _

theorem BitstreamRestrictions.checked_read : Checked BitstreamRestrictions.read := by
  unfold BitstreamRestrictions.read
  refine .bind (checked_flag _) fun overBoundaries => ?_
  refine .bind (checked_ue _) fun bytesDenom => .bind (checked_ue _) fun bitsDenom => ?_
  refine .bind (checked_ue _) fun horizontal => .bind (checked_ue _) fun vertical => ?_
  exact .bind (checked_ue _) fun reorder => .bind (checked_ue _) fun buffering => .pure _

theorem CpbSpec.checked_read : Checked CpbSpec.read := by
  unfold CpbSpec.read
  exact .bind (checked_ue _) fun rate => .bind (checked_ue _) fun size =>
    .bind (checked_flag _) fun constant => .pure _

theorem HrdParameters.checked_read : Checked HrdParameters.read := by
  unfold HrdParameters.read
  refine .bind (checked_ueMax _ _) fun count => ?_
  refine .bind (checked_bits (by decide) _) fun rateScale => ?_
  refine .bind (checked_bits (by decide) _) fun sizeScale => ?_
  refine .bind (checked_times CpbSpec.checked_read _) fun specs => ?_
  refine .bind (checked_bits (by decide) _) fun initialLength => ?_
  refine .bind (checked_bits (by decide) _) fun removalLength => ?_
  refine .bind (checked_bits (by decide) _) fun outputLength => ?_
  exact .bind (checked_bits (by decide) _) fun timeOffset => .pure _

theorem VuiParameters.checked_read : Checked VuiParameters.read := by
  unfold VuiParameters.read
  refine .bind (checked_flagged AspectRatio.checked_read _) fun aspectRatio => ?_
  refine .bind (checked_flagged (checked_flag _) _) fun overscan => ?_
  refine .bind (checked_flagged VideoSignalType.checked_read _) fun signal => ?_
  refine .bind (checked_flagged ChromaLocation.checked_read _) fun location => ?_
  refine .bind (checked_flagged TimingInfo.checked_read _) fun timing => ?_
  refine .bind (checked_flagged HrdParameters.checked_read _) fun nalHrd => ?_
  refine .bind (checked_flagged HrdParameters.checked_read _) fun vclHrd => ?_
  refine .bind (checked_optional (checked_flag _) _) fun lowDelay => ?_
  refine .bind (checked_flag _) fun picStruct => ?_
  exact .bind (checked_flagged BitstreamRestrictions.checked_read _) fun limits => .pure _

/-! ## Scaling lists and chroma -/

theorem ScalingList.checked_readNext (last : Nat) : Checked (ScalingList.readNext last) := by
  unfold ScalingList.readNext
  exact .bind (checked_se _) fun delta => .require rfl (.pure _)

theorem ScalingList.checked_readWeights (last : Nat) (repeating : Bool) (count : Nat) :
    Checked (ScalingList.readWeights last repeating count) := by
  induction count generalizing last repeating with
  | zero =>
    cases repeating with
    | false => exact .pure []
    | true => exact .pure []
  | succ count ih =>
    cases repeating with
    | true => exact .bind (ih last true) fun rest => .pure _
    | false =>
      refine .bind (ScalingList.checked_readNext last) fun next => .ite ?_ ?_
      · exact .bind (ih last true) fun rest => .pure _
      · exact .bind (ih next false) fun rest => .pure _

theorem ScalingList.checked_read (size : Nat) : Checked (ScalingList.read size) := by
  cases size with
  | zero => exact .pure _
  | succ size =>
    refine .bind (ScalingList.checked_readNext _) fun first => .ite (.pure _) ?_
    exact .bind (ScalingList.checked_readWeights first false size) fun rest => .pure _

theorem ScalingMatrix.checked_readFrom (index count : Nat) :
    Checked (ScalingMatrix.readFrom index count) := by
  induction count generalizing index with
  | zero => exact .pure []
  | succ count ih =>
    refine .bind (checked_flagged (ScalingList.checked_read _) _) fun first => ?_
    exact .bind (ih (index + 1)) fun rest => .pure _

theorem ScalingMatrix.checked_read (count : Nat) : Checked (ScalingMatrix.read count) := by
  unfold ScalingMatrix.read
  exact .bind (ScalingMatrix.checked_readFrom 0 count) fun lists => .pure _

theorem ChromaInfo.checked_read (profileIdc : Nat) : Checked (ChromaInfo.read profileIdc) := by
  refine .ite ?_ (.pure _)
  unfold ChromaInfo.readFields
  refine .bind (checked_ueMax _ _) fun format => ?_
  refine .branch (checked_flag _) (.pure false) fun separate => ?_
  refine .bind (checked_ueMax _ _) fun luma => .bind (checked_ueMax _ _) fun chroma => ?_
  refine .bind (checked_flag _) fun bypass => ?_
  exact .bind (checked_flagged (ScalingMatrix.checked_read _) _) fun matrix => .pure _

/-! ## Sequence parameter sets -/

/-- The low bits of an order count are few. -/
def PicOrderCnt.LsbFits (coding : PicOrderCnt) : Prop :=
  ∀ log2MaxLsbMinus4, coding = .lowBits log2MaxLsbMinus4 → log2MaxLsbMinus4 ≤ 12

theorem PicOrderCnt.yields_read : Yields PicOrderCnt.read PicOrderCnt.LsbFits := by
  unfold PicOrderCnt.read
  refine .bind (checked_ue _) fun type _ => ?_
  split
  · refine .bind (yields_ueMax _ _) fun low hlow => .pure ?_
    rintro _ ⟨⟩
    exact_mod_cast hlow
  · unfold PicOrderCnt.readOffsets
    refine .bind (checked_flag _) fun alwaysZero _ => .bind (checked_se _) fun nonRef _ => ?_
    refine .bind (checked_se _) fun topToBottom _ => .bind (checked_ueMax _ _) fun count _ => ?_
    refine .bind (checked_times (checked_se _) count) fun refFrames _ => .pure ?_
    rintro _ ⟨⟩
  · refine .pure ?_
    rintro _ ⟨⟩
  · exact .fail rfl _

/-- The widths of the fields that a sequence parameter set governs in slices. -/
structure SeqParameterSet.FieldWidths (sps : SeqParameterSet) : Prop where
  frameNum : sps.log2MaxFrameNumMinus4 ≤ 12
  lsb : sps.picOrderCnt.LsbFits

theorem FrameCropping.checked_read : Checked FrameCropping.read := by
  unfold FrameCropping.read
  exact .bind (checked_ue _) fun left => .bind (checked_ue _) fun right =>
    .bind (checked_ue _) fun top => .bind (checked_ue _) fun bottom => .pure _

namespace SeqParameterSet

theorem yields_readFields : Yields readFields FieldWidths := by
  unfold readFields
  refine .bind (checked_u8 _) fun profileIdc _ => .bind (checked_u8 _) fun flags _ => ?_
  refine .bind (checked_u8 _) fun levelIdc _ => .bind (checked_ueMax _ _) fun id _ => ?_
  refine .bind (ChromaInfo.checked_read _) fun chroma _ => ?_
  refine .bind (yields_ueMax _ _) fun frameNum hframeNum => ?_
  refine .bind PicOrderCnt.yields_read fun picOrderCnt hlsb => ?_
  refine .bind (checked_ue _) fun refFrames _ => .bind (checked_flag _) fun gaps _ => ?_
  refine .bind (checked_ue _) fun width _ => .bind (checked_ue _) fun height _ => ?_
  refine .bind (checked_flag _) fun frameMbsOnly _ => ?_
  refine .branch (.pure trivial) (checked_flag _) fun adaptive _ => ?_
  refine .bind (checked_flag _) fun direct8x8 _ => ?_
  refine .bind (checked_flagged FrameCropping.checked_read _) fun cropping _ => ?_
  refine .bind (checked_flagged VuiParameters.checked_read _) fun vui _ => .pure ?_
  exact ⟨by exact_mod_cast hframeNum, hlsb⟩

theorem checked_pixelDimensions (sps : SeqParameterSet) : CheckedOutcome sps.pixelDimensions := by
  unfold pixelDimensions
  cases sps.frameCropping with
  | none => exact .ok _
  | some crop => exact .ite (.fail rfl) (.ite (.fail rfl) (.ok _))

theorem checked_checkRestrictions (sps : SeqParameterSet) (limits : BitstreamRestrictions) :
    CheckedOutcome (sps.checkRestrictions limits) := by
  unfold checkRestrictions
  exact .guard rfl (.ite (.fail rfl) (.ok _))

theorem checked_check (sps : SeqParameterSet) : CheckedOutcome sps.check := by
  unfold check
  refine .bind (checked_pixelDimensions sps) fun size _ => ?_
  cases sps.vui.bind VuiParameters.restrictions with
  | none => exact .ok ()
  | some limits => exact checked_checkRestrictions sps limits

theorem yields_readData : Yields readData FieldWidths := by
  unfold readData
  refine .bind yields_readFields fun sps hsps => ?_
  exact .bind (checked_ofExcept (checked_check sps)) fun _ _ => .pure hsps

theorem yields_read : Yields read FieldWidths := by
  unfold read
  exact .bind yields_readData fun sps hsps => .bind checked_finishRbsp fun _ _ => .pure hsps

end SeqParameterSet

/-! ## Subset parameter sets -/

theorem SvcSpsExtension.checked_read (arrayType : Nat) :
    Checked (SvcSpsExtension.read arrayType) := by
  have hphaseX : ∀ (sent : Bool) (name : String),
      Checked (if sent && hasPhaseX arrayType then flag name else return false) :=
    fun sent name => .ite (checked_flag name) (.pure false)
  have hphaseY : ∀ (sent : Bool) (name : String), Checked (if sent && hasPhaseY arrayType
      then bits 2 name else return inferredPhaseY arrayType) :=
    fun sent name => .ite (checked_bits (by decide) name) (.pure _)
  have hoffset : ∀ (sent : Bool) (name : String), Checked (if sent then se name else return 0) :=
    fun sent name => .ite (checked_se name) (.pure 0)
  unfold SvcSpsExtension.read
  refine .bind (checked_flag _) fun deblocking => ?_
  refine .bind (checked_bits (by decide) _) fun scalability => ?_
  refine .bind (hphaseX _ _) fun chromaX => .bind (hphaseY _ _) fun chromaY => ?_
  refine .bind (hphaseX _ _) fun refX => .bind (hphaseY _ _) fun refY => ?_
  refine .bind (hoffset _ _) fun left => .bind (hoffset _ _) fun top => ?_
  refine .bind (hoffset _ _) fun right => .bind (hoffset _ _) fun bottom => ?_
  refine .bind (checked_flag _) fun prediction => ?_
  refine .branch (checked_flag _) (.pure false) fun adaptive => ?_
  exact .bind (checked_flag _) fun restriction => .bind (checked_flag _) fun vui => .pure _

namespace MvcSpsExtension

theorem checked_readRefs (countName refName : String) : Checked (readRefs countName refName) := by
  unfold readRefs
  exact .bind (checked_ueMax _ _) fun count => checked_times (checked_ueMax _ _) count

theorem checked_readViews : Checked readViews := by
  have hanchor : Checked readAnchorRefs :=
    .bind (checked_readRefs _ _) fun l0 => .bind (checked_readRefs _ _) fun l1 => .pure _
  have hnonAnchor : Checked readNonAnchorRefs :=
    .bind (checked_readRefs _ _) fun l0 => .bind (checked_readRefs _ _) fun l1 => .pure _
  unfold readViews
  refine .bind (checked_ueMax _ _) fun count => ?_
  refine .bind (checked_times (checked_ueMax _ _) _) fun ids => ?_
  refine .bind (checked_times hanchor _) fun anchor => ?_
  exact .bind (checked_times hnonAnchor _) fun nonAnchor => .pure _

theorem checked_readPoint : Checked readPoint := by
  unfold readPoint
  refine .bind (checked_bits (by decide) _) fun temporalId => ?_
  refine .bind (checked_ueMax _ _) fun targets => ?_
  refine .bind (checked_times (checked_ueMax _ _) _) fun ids => ?_
  exact .bind (checked_ueMax _ _) fun views => .pure _

theorem checked_readLevelValue : Checked readLevelValue := by
  unfold readLevelValue
  refine .bind (checked_u8 _) fun levelIdc => .bind (checked_ueMax _ _) fun points => ?_
  exact .bind (checked_times checked_readPoint _) fun values => .pure _

theorem checked_read : Checked read := by
  unfold read
  refine .bind checked_readViews fun views => .bind (checked_ueMax _ _) fun levels => ?_
  exact .bind (checked_times checked_readLevelValue _) fun values => .pure _

end MvcSpsExtension

theorem SubsetExtension.checked_read (sps : SeqParameterSet) :
    Checked (SubsetExtension.read sps) := by
  unfold SubsetExtension.read
  refine .ite ?_ (.ite ?_ (.ite ?_ (.pure none)))
  · refine .bind (checked_flag _) fun one => ?_
    exact .bind (SvcSpsExtension.checked_read _) fun fields => .pure _
  · refine .bind (checked_flag _) fun one => .bind MvcSpsExtension.checked_read fun fields => ?_
    exact .bind (checked_flag _) fun vui => .pure _
  · exact .bind (checked_flag _) fun one => .pure _

theorem SubsetSps.checked_readTail : Checked SubsetSps.readTail := by
  unfold SubsetSps.readTail
  refine .bind (checked_flag _) fun additional => ?_
  refine .skippable checked_skipToTrailing fun _ => ?_
  exact .bind checked_finishRbsp fun _ => .pure _

theorem SubsetSps.yields_read : Yields SubsetSps.read fun subset => subset.sps.FieldWidths := by
  unfold SubsetSps.read
  refine .bind SeqParameterSet.yields_readData fun sps hsps => ?_
  refine .bind (SubsetExtension.checked_read sps) fun extension _ => ?_
  refine .ite (fun _ => .pure hsps) fun _ => ?_
  exact .bind SubsetSps.checked_readTail fun additional _ => .pure hsps

end H264
