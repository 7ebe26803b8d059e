import H264.Proofs.Analysis.Decoded
import H264.Proofs.Slice.Decoded

/-!
# What accepted sequence parameter sets guarantee

Values that are computed from a sequence parameter set rely on bounds that no single field gives:
the size of a picture on its cropping, which is counted in units that follow from chroma format and
coding of fields, the buffer of decoded pictures on the level and on the size of a frame.
**Main statement** (`accepted_set_guarantees`): whichever way a set is read, it keeps the bounds of
its fields, its picture has a size, which is what cropping leaves, and the announced limits fit into
the buffer, which holds at most 16 frames.
-/

namespace H264

namespace SeqParameterSet

/-- The margins that are cropped, none unless they are sent. -/
def margins (sps : SeqParameterSet) : FrameCropping :=
  sps.frameCropping.getD { left := 0, right := 0, top := 0, bottom := 0 }

/-- The units of cropping, by the chroma planes and by whether fields are coded. -/
structure CropUnits (sps : SeqParameterSet) : Prop where
  withoutChroma : sps.chroma.arrayType = 0 →
    sps.cropUnitX = 1 ∧ sps.cropUnitY = 2 - sps.frameMbsOnly.toNat
  withChroma : sps.chroma.arrayType ≠ 0 →
    sps.cropUnitX = sps.chroma.format.subWidth ∧
      sps.cropUnitY = sps.chroma.format.subHeight * (2 - sps.frameMbsOnly.toNat)

/-- A picture has a size, a column and a row at least: what its margins leave of its blocks. -/
structure HasSize (sps : SeqParameterSet) (width height : Nat) : Prop where
  size : sps.pixelDimensions = .ok (width, height)
  columns : (width : Int) =
    16 * sps.picWidthInMbs - sps.cropUnitX * (sps.margins.left + sps.margins.right)
  rows : (height : Int) =
    16 * sps.frameHeightInMbs - sps.cropUnitY * (sps.margins.top + sps.margins.bottom)
  column : 1 ≤ width
  row : 1 ≤ height

/-- Buffer parameters are for 1 to 32 buffers, and come with the flag for low delay. -/
structure GuaranteedHrd (vui : VuiParameters) : Prop where
  buffers : ∀ hrd, vui.nalHrd = some hrd ∨ vui.vclHrd = some hrd →
    1 ≤ hrd.cpbSpecs.length ∧ hrd.cpbSpecs.length ≤ 32
  lowDelay : vui.lowDelayHrd.isSome = true ↔ vui.nalHrd.isSome = true ∨ vui.vclHrd.isSome = true

/-- Bounds of single fields, and those that hold across fields. -/
structure Guaranteed (sps : SeqParameterSet) : Prop where
  id : sps.id ≤ 31
  bitDepthLuma : 8 ≤ sps.bitDepthLuma ∧ sps.bitDepthLuma ≤ 14
  bitDepthChroma : 8 ≤ sps.bitDepthChroma ∧ sps.bitDepthChroma ≤ 14
  scalingLists : ∀ matrix ∈ sps.chroma.scalingMatrix,
    matrix.lists.length = if sps.chroma.format = .yuv444 then 12 else 8
  log2MaxFrameNum : 4 ≤ sps.log2MaxFrameNum ∧ sps.log2MaxFrameNum ≤ 16
  hrd : ∀ vui ∈ sps.vui, GuaranteedHrd vui
  fieldsOfFrame : sps.mbAdaptiveFrameField = true → sps.frameMbsOnly = false
  cropUnits : sps.CropUnits
  size : ∃ width height, sps.HasSize width height
  frameSize : 0 < sps.picWidthInMbs * sps.frameHeightInMbs
  dpbFrames : sps.maxDpbFrames ≤ 16
  restrictions : ∀ vui ∈ sps.vui, ∀ limits ∈ vui.restrictions,
    limits.maxNumReorderFrames ≤ limits.maxDecFrameBuffering ∧
      limits.maxDecFrameBuffering ≤ sps.maxDpbFrames

/-! ## Sizes -/

variable {sps : SeqParameterSet}

theorem fieldFactor_eq (sps : SeqParameterSet) : sps.fieldFactor = 2 - sps.frameMbsOnly.toNat := by
  unfold fieldFactor
  cases sps.frameMbsOnly <;> rfl

theorem cropUnits (sps : SeqParameterSet) : sps.CropUnits where
  withoutChroma := by
    intro hnone
    rw [cropUnitX, cropUnitY, if_pos hnone, if_pos hnone, fieldFactor_eq]
    exact ⟨rfl, rfl⟩
  withChroma := by
    intro hsome
    rw [cropUnitX, cropUnitY, if_neg hsome, if_neg hsome, fieldFactor_eq]
    exact ⟨rfl, rfl⟩

theorem frameSize_pos (sps : SeqParameterSet) : 0 < sps.picWidthInMbs * sps.frameHeightInMbs := by
  have hfactor : 0 < sps.fieldFactor := by
    unfold fieldFactor
    split <;> decide
  exact Nat.mul_pos (Nat.succ_pos _) (Nat.mul_pos hfactor (Nat.succ_pos _))

/-- Neither the level nor the profile lets the buffer hold more. -/
theorem maxDpbFrames_le (sps : SeqParameterSet) : sps.maxDpbFrames ≤ 16 := by
  unfold maxDpbFrames
  split
  · exact Nat.zero_le 16
  · split
    · exact le_rfl
    · exact Nat.min_le_right _ _

theorem Valid.margins_lt (h : sps.Valid) :
    sps.cropUnitX * (sps.margins.left + sps.margins.right) < sps.picWidthInMbs * 16 ∧
      sps.cropUnitY * (sps.margins.top + sps.margins.bottom) < sps.frameHeightInMbs * 16 := by
  unfold margins
  cases hcrop : sps.frameCropping with
  | none =>
    have hpos := frameSize_pos sps
    have hwidth : 0 < sps.picWidthInMbs := Nat.pos_of_mul_pos_right hpos
    have hheight : 0 < sps.frameHeightInMbs := Nat.pos_of_mul_pos_left hpos
    simp [hwidth, hheight]
  | some crop => exact ⟨h.leavesColumn crop hcrop, h.leavesRow crop hcrop⟩

/-- Where margins leave something, the size is what they leave. -/
theorem pixelDimensions_eq_ok
    (hcolumn : sps.cropUnitX * (sps.margins.left + sps.margins.right) < sps.picWidthInMbs * 16)
    (hrow : sps.cropUnitY * (sps.margins.top + sps.margins.bottom) < sps.frameHeightInMbs * 16) :
    sps.pixelDimensions = .ok
      (sps.picWidthInMbs * 16 - sps.cropUnitX * (sps.margins.left + sps.margins.right),
        sps.frameHeightInMbs * 16 - sps.cropUnitY * (sps.margins.top + sps.margins.bottom)) := by
  unfold pixelDimensions
  unfold margins at hcolumn hrow ⊢
  cases hcrop : sps.frameCropping with
  | none => rfl
  | some crop =>
    rw [hcrop] at hcolumn hrow
    exact (if_neg (Nat.not_le.mpr hcolumn)).trans (if_neg (Nat.not_le.mpr hrow))

/-- What margins leave of some blocks, without a difference of natural numbers. -/
theorem natCast_left {blocks unit first second : Nat} (h : unit * (first + second) < blocks * 16) :
    ((blocks * 16 - unit * (first + second) : Nat) : Int) =
      16 * blocks - unit * (first + second) := by
  rw [Int.ofNat_sub h.le, Int.natCast_mul, Int.natCast_mul, Int.natCast_add, Int.mul_comm 16]
  rfl

theorem Valid.exists_size (h : sps.Valid) : ∃ width height, sps.HasSize width height := by
  obtain ⟨hcolumn, hrow⟩ := h.margins_lt
  refine ⟨_, _, pixelDimensions_eq_ok hcolumn hrow, ?_, ?_, ?_, ?_⟩
  · exact natCast_left hcolumn
  · exact natCast_left hrow
  · exact Nat.sub_pos_of_lt hcolumn
  · exact Nat.sub_pos_of_lt hrow

/-! ## Accepted sets -/

/-- The defaults are valid as well. -/
theorem validFields_chroma {profileIdc : Nat} {info : ChromaInfo} (h : info.Valid profileIdc) :
    info.ValidFields := by
  unfold ChromaInfo.Valid at h
  split at h
  · exact h
  · rw [h]
    exact ⟨fun _ => rfl, by decide, by decide, by simp⟩

theorem GuaranteedHrd.of_valid {vui : VuiParameters} (h : vui.Valid) : GuaranteedHrd vui where
  buffers := by
    rintro hrd (hnal | hvcl)
    · exact (h.nalHrd hrd hnal).cpbCount
    · exact (h.vclHrd hrd hvcl).cpbCount
  lowDelay := by
    rw [h.lowDelayHrd, Bool.or_eq_true]

theorem Valid.guaranteed (h : sps.Valid) : sps.Guaranteed where
  id := h.id
  bitDepthLuma := by
    have := (validFields_chroma h.chroma).bitDepthLumaMinus8
    unfold bitDepthLuma
    omega
  bitDepthChroma := by
    have := (validFields_chroma h.chroma).bitDepthChromaMinus8
    unfold bitDepthChroma
    omega
  scalingLists := by
    intro matrix hmatrix
    exact ((validFields_chroma h.chroma).scalingMatrix matrix hmatrix).count
  log2MaxFrameNum := by
    have := h.log2MaxFrameNumMinus4
    unfold log2MaxFrameNum
    omega
  hrd := fun vui hvui => .of_valid (h.vui vui hvui)
  fieldsOfFrame := by
    intro hadaptive
    refine Bool.eq_false_iff.mpr fun honly => ?_
    exact absurd (hadaptive.symm.trans (h.mbAdaptiveFrameField honly)) nofun
  cropUnits := cropUnits sps
  size := h.exists_size
  frameSize := frameSize_pos sps
  dpbFrames := maxDpbFrames_le sps
  restrictions := by
    intro vui hvui limits hlimits
    have hsome : limits ∈ sps.vui.bind VuiParameters.restrictions :=
      Option.mem_bind_iff.mpr ⟨vui, hvui, hlimits⟩
    exact ⟨h.reordersWithinBuffer limits hsome, h.fitsPictureBuffer limits hsome⟩

/-- **Guarantees of accepted sets.** A sequence parameter set that is read, with or without what
closes it, keeps all bounds. -/
theorem accepted_set_guarantees {before after : Reader}
    (h : readData before = .ok sps after ∨ read before = .ok sps after) : sps.Guaranteed := by
  have hgives : Read.Gives readData sps := by
    rcases h with hdata | hwhole
    · exact ⟨before, after, hdata⟩
    · exact ParamSets.gives_readData ⟨before, after, hwhole⟩
  obtain ⟨_, hvalid, _⟩ := takes_data.of_gives hgives
  exact hvalid.guaranteed

/-- A set for pictures of 1920 by 1080 with coded fields: of its 1088 rows cropping takes 8, in two
units of 4; its limits use all of the buffer of the level. -/
theorem accepted_set_guarantees_fields :
    let data : Bytes := [100, 0, 40, 172, 217, 64, 120, 4, 79, 220, 24, 145, 11, 189, 239, 129, 180,
      44, 91, 44]
    ∃ sps after, read { data } = .ok sps after ∧
      sps.pixelDimensions.toOption = some (1920, 1080) ∧ sps.Guaranteed := by
  intro data
  have hread : (match read { data } with
      | .ok sps _ => decide (sps.pixelDimensions.toOption = some (1920, 1080))
      | .error .. => false) = true := by decide +kernel
  split at hread
  · rename_i sps after hrun
    exact ⟨sps, after, hrun, of_decide_eq_true hread, accepted_set_guarantees (.inr hrun)⟩
  · cases hread

end SeqParameterSet

end H264
