import H264.Proofs.Bits.Closed
import H264.Proofs.Scaling.Lists
import H264.Proofs.Sps.Vui
import H264.Sps.Basic

/-!
# Valid sequence parameter sets

`SeqParameterSet.Valid` says which sequence parameter sets are valid: each field in its range, each
part present just where the profile and the flags ask for it, and the rules that join several fields.
Main statement: `SeqParameterSet.sequence_read_iff_written` says that reading accepts exactly the
writings of valid sets.
-/

namespace H264

/-! ## Chroma -/

/-- Valid chroma fields, as the high profiles send them. -/
structure ChromaInfo.ValidFields (info : ChromaInfo) : Prop where
  separateColourPlane : info.format ≠ .yuv444 → info.separateColourPlane = false
  bitDepthLumaMinus8 : info.bitDepthLumaMinus8 ≤ 6
  bitDepthChromaMinus8 : info.bitDepthChromaMinus8 ≤ 6
  scalingMatrix : ∀ matrix ∈ info.scalingMatrix, matrix.Valid info.format.scalingListCount

/-- Valid chroma fields of a sequence of a profile: the defaults, unless it is a high one. -/
def ChromaInfo.Valid (profileIdc : Nat) (info : ChromaInfo) : Prop :=
  if Profile.highIdcs.contains profileIdc then info.ValidFields else info = {}

namespace ChromaFormat

@[simp] theorem ofIdc_idc (format : ChromaFormat) : ofIdc format.idc = format := by
  cases format <;> rfl

theorem idc_ofIdc {idc : Nat} (h : idc ≤ 3) : (ofIdc idc).idc = idc := by
  have hcases : idc = 0 ∨ idc = 1 ∨ idc = 2 ∨ idc = 3 := by omega
  rcases hcases with rfl | rfl | rfl | rfl <;> rfl

theorem idc_le (format : ChromaFormat) : format.idc ≤ 3 := by
  cases format <;> decide

end ChromaFormat

namespace ChromaInfo

theorem bitDepthLumaMinus8_le {profileIdc : Nat} {info : ChromaInfo} (h : info.Valid profileIdc) :
    info.bitDepthLumaMinus8 ≤ 6 := by
  unfold Valid at h
  split at h
  · exact h.bitDepthLumaMinus8
  · rw [h]
    decide

theorem readsBack_fields {info : ChromaInfo} (h : info.ValidFields) :
    ReadsBack readFields info.fieldElements info := by
  have hplane : ReadsBack
      (if info.format = .yuv444 then Read.flag "separate_colour_plane_flag" else Pure.pure false)
      (if info.format = .yuv444 then [.flag info.separateColourPlane] else [])
      info.separateColourPlane := by
    refine .ite (fun _ => .flag _ _) fun hformat => ?_
    rw [h.separateColourPlane hformat]
    exact .pure false
  unfold readFields fieldElements
  simp only [List.cons_append, List.append_assoc, List.nil_append]
  refine .cons (.ueMax _ info.format.idc_le (by decide)) ?_
  simp only [ChromaFormat.ofIdc_idc]
  refine .branch hplane <| .cons (.ueMax _ h.bitDepthLumaMinus8 (by decide)) ?_
  refine .cons (.ueMax _ h.bitDepthChromaMinus8 (by decide)) <| .cons (.flag _ _) ?_
  refine .of_append_nil ?_
  exact .bind (.flagged _ fun x hx => ScalingMatrix.readsBack (h.scalingMatrix x hx)) <| .pure _

theorem readsBack {profileIdc : Nat} {info : ChromaInfo} (h : info.Valid profileIdc) :
    ReadsBack (read profileIdc) (info.elements profileIdc) info := by
  unfold Valid at h
  refine .ite (fun hhigh => ?_) fun hlow => ?_
  · rw [if_pos hhigh] at h
    exact readsBack_fields h
  · rw [if_neg hlow] at h
    rw [h]
    exact .pure _

theorem takes_fields : Takes readFields fun info elements =>
    info.ValidFields ∧ (info.scalingMatrix = none → elements = info.fieldElements) := by
  have hplane : ∀ format : ChromaFormat, Accepts
      (if format = .yuv444 then Read.flag "separate_colour_plane_flag" else Pure.pure false)
      (fun separate => format ≠ .yuv444 → separate = false)
      fun separate => if format = .yuv444 then [.flag separate] else [] := by
    refine fun format => .ite (fun hsent => (Accepts.flag _).mono ?_) fun hnone => .pure ?_
    · rintro separate _ ⟨-, rfl⟩
      exact ⟨fun hne => absurd hsent hne, (if_pos hsent).symm⟩
    · exact ⟨fun _ => rfl, (if_neg hnone).symm⟩
  unfold readFields
  refine .part (.ueMax _ 3) fun idc hidc => ?_
  refine .branch (hplane _) fun separate hseparate => ?_
  refine .part (.ueMax _ 6) fun luma hluma => .part (.ueMax _ 6) fun chroma hchroma => ?_
  refine .part (.flag _) fun bypass _ => ?_
  -- of a scaling matrix only its value is known, for there are several ways to send it
  refine .bind (.flagged (ScalingMatrix.takes _) _) fun matrix _ ⟨rest, hrest, hmatrix⟩ => ?_
  refine .pure ⟨⟨hseparate, hluma, hchroma, ?_⟩, ?_⟩
  · rintro sent rfl
    exact hmatrix
  · rintro rfl
    have hend : rest = [] := hmatrix
    simp [fieldElements, hrest, hend, Element.flagged, Element.sent, ChromaFormat.idc_ofIdc hidc]

theorem takes (profileIdc : Nat) : Takes (read profileIdc) fun info elements =>
    info.Valid profileIdc ∧
      (info.scalingMatrix = none → elements = info.elements profileIdc) := by
  unfold read Valid elements
  refine .ite (fun hhigh => ?_) fun hlow => .pure ?_
  · simp only [if_pos hhigh]
    exact takes_fields
  · rw [if_neg hlow, if_neg hlow]
    exact ⟨rfl, fun _ => rfl⟩

end ChromaInfo

/-! ## Order counts and cropping -/

/-- A valid coding of order counts. -/
def PicOrderCnt.Valid : PicOrderCnt → Prop
  | lowBits log2MaxLsbMinus4 => log2MaxLsbMinus4 ≤ 12
  | offsets _ nonRefPic topToBottomField refFrames =>
    (-Codeword.maxSigned ≤ nonRefPic ∧ nonRefPic ≤ Codeword.maxSigned) ∧
    (-Codeword.maxSigned ≤ topToBottomField ∧ topToBottomField ≤ Codeword.maxSigned) ∧
    refFrames.length ≤ 255 ∧
    ∀ offset ∈ refFrames, -Codeword.maxSigned ≤ offset ∧ offset ≤ Codeword.maxSigned
  | decodingOrder => True

namespace PicOrderCnt

theorem type_le (coding : PicOrderCnt) : coding.type ≤ 2 := by
  cases coding <;> simp [type]

theorem readsBack {coding : PicOrderCnt} (h : coding.Valid) :
    ReadsBack read coding.elements coding := by
  have htype : coding.type ≤ Codeword.maxCodeNumber := Nat.le_trans coding.type_le (by decide)
  unfold read
  cases coding with
  | lowBits log2MaxLsbMinus4 =>
    exact .cons (.ue _ htype) <| .cons (.ueMax _ h (by decide)) <| .pure _
  | offsets deltaAlwaysZero nonRefPic topToBottomField refFrames =>
    obtain ⟨hnonRef, htopToBottom, hcount, hrefFrames⟩ := h
    unfold elements
    simp only [List.cons_append, List.nil_append]
    rw [List.map_eq_flatMap]
    refine .cons (.ue _ htype) <| .cons (.flag _ _) <| .cons (.se _ hnonRef) ?_
    refine .cons (.se _ htopToBottom) <| .cons (.ueMax _ hcount (by decide)) <| .of_append_nil ?_
    exact .bind (.times rfl fun offset hoffset => .se _ (hrefFrames offset hoffset)) <| .pure _
  | decodingOrder => exact .cons (.ue _ htype) <| .pure _

theorem accepts : Accepts read Valid elements := by
  unfold read
  refine .part (.ue _) fun type _ => ?_
  split
  · exact .part (.ueMax _ 12) fun low hlow => .pure ⟨hlow, rfl⟩
  · unfold readOffsets
    refine .part (.flag _) fun alwaysZero _ => .part (.se _) fun nonRef hnonRef => ?_
    refine .part (.se _) fun topToBottom htopToBottom => .part (.ueMax _ 255) fun count hcount => ?_
    refine .part (.times (.se _) count) fun refFrames ⟨hlength, hrefFrames⟩ => .pure ⟨?_, ?_⟩
    · exact ⟨hnonRef, htopToBottom, hlength ▸ hcount, hrefFrames⟩
    · simp [elements, PicOrderCnt.type, hlength, List.map_eq_flatMap]
  · exact .pure ⟨trivial, rfl⟩
  · -- no other type is read
    exact .fail _ _

end PicOrderCnt

/-- Margins whose numbers have a code. -/
structure FrameCropping.Valid (crop : FrameCropping) : Prop where
  left : crop.left ≤ Codeword.maxCodeNumber
  right : crop.right ≤ Codeword.maxCodeNumber
  top : crop.top ≤ Codeword.maxCodeNumber
  bottom : crop.bottom ≤ Codeword.maxCodeNumber

theorem FrameCropping.readsBack {crop : FrameCropping} (h : crop.Valid) :
    ReadsBack FrameCropping.read crop.elements crop :=
  .cons (.ue _ h.left) <| .cons (.ue _ h.right) <| .cons (.ue _ h.top) <|
    .cons (.ue _ h.bottom) <| .pure _

theorem FrameCropping.accepts : Accepts FrameCropping.read Valid elements :=
  .part (.ue _) fun _ hleft => .part (.ue _) fun _ hright => .part (.ue _) fun _ htop =>
    .part (.ue _) fun _ hbottom => .pure ⟨⟨hleft, hright, htop, hbottom⟩, rfl⟩

/-! ## Sequence parameter sets -/

namespace SeqParameterSet

/-- Fields that are valid each by itself and are present just where they are sent. -/
structure ValidFields (sps : SeqParameterSet) : Prop where
  profileIdc : sps.profileIdc < 256
  constraintFlags : sps.constraintFlags.value < 256
  levelIdc : sps.levelIdc < 256
  id : sps.id ≤ maxSpsId
  chroma : sps.chroma.Valid sps.profileIdc
  log2MaxFrameNumMinus4 : sps.log2MaxFrameNumMinus4 ≤ 12
  picOrderCnt : sps.picOrderCnt.Valid
  maxNumRefFrames : sps.maxNumRefFrames ≤ Codeword.maxCodeNumber
  picWidthInMbsMinus1 : sps.picWidthInMbsMinus1 ≤ Codeword.maxCodeNumber
  picHeightInMapUnitsMinus1 : sps.picHeightInMapUnitsMinus1 ≤ Codeword.maxCodeNumber
  mbAdaptiveFrameField : sps.frameMbsOnly = true → sps.mbAdaptiveFrameField = false
  frameCropping : ∀ crop ∈ sps.frameCropping, crop.Valid
  vui : ∀ vui ∈ sps.vui, vui.Valid

/-- A valid sequence parameter set: cropping leaves a column and a row, and the announced limits fit
the level and each other. -/
structure Valid (sps : SeqParameterSet) : Prop extends sps.ValidFields where
  leavesColumn : ∀ crop ∈ sps.frameCropping,
    sps.cropUnitX * (crop.left + crop.right) < sps.picWidthInMbs * 16
  leavesRow : ∀ crop ∈ sps.frameCropping,
    sps.cropUnitY * (crop.top + crop.bottom) < sps.frameHeightInMbs * 16
  fitsPictureBuffer : ∀ limits ∈ sps.vui.bind VuiParameters.restrictions,
    limits.maxDecFrameBuffering ≤ sps.maxDpbFrames
  reordersWithinBuffer : ∀ limits ∈ sps.vui.bind VuiParameters.restrictions,
    limits.maxNumReorderFrames ≤ limits.maxDecFrameBuffering

theorem readsBack_fields {sps : SeqParameterSet} (h : sps.ValidFields) :
    ReadsBack readFields sps.elements sps := by
  have hadaptive : ReadsBack
      (if sps.frameMbsOnly = true then Pure.pure false else Read.flag "mb_adaptive_frame_field_flag")
      (if sps.frameMbsOnly = true then [] else [.flag sps.mbAdaptiveFrameField])
      sps.mbAdaptiveFrameField := by
    refine .ite (fun honly => ?_) fun _ => .flag _ _
    rw [h.mbAdaptiveFrameField honly]
    exact .pure false
  unfold readFields elements
  simp only [List.cons_append, List.nil_append, List.append_assoc]
  refine .cons (.u8 _ h.profileIdc) <| .cons (.u8 _ h.constraintFlags) ?_
  refine .cons (.u8 _ h.levelIdc) <| .cons (.ueMax _ h.id (by decide)) ?_
  refine .bind (ChromaInfo.readsBack h.chroma) ?_
  refine .cons (.ueMax _ h.log2MaxFrameNumMinus4 (by decide)) ?_
  refine .bind (PicOrderCnt.readsBack h.picOrderCnt) ?_
  refine .cons (.ue _ h.maxNumRefFrames) <| .cons (.flag _ _) ?_
  refine .cons (.ue _ h.picWidthInMbsMinus1) <| .cons (.ue _ h.picHeightInMapUnitsMinus1) ?_
  refine .cons (.flag _ _) <| .branch hadaptive <| .cons (.flag _ _) ?_
  refine .bind (.flagged _ fun x hx => FrameCropping.readsBack (h.frameCropping x hx)) ?_
  exact .of_append_nil <|
    .bind (.flagged _ fun x hx => VuiParameters.readsBack (h.vui x hx)) <| .pure _

theorem takes_fields : Takes readFields fun sps elements =>
    sps.ValidFields ∧ (sps.chroma.scalingMatrix = none → elements = sps.elements) := by
  have hadaptive : ∀ frameMbsOnly : Bool, Accepts
      (if frameMbsOnly = true then Pure.pure false else Read.flag "mb_adaptive_frame_field_flag")
      (fun adaptive => frameMbsOnly = true → adaptive = false)
      fun adaptive => if frameMbsOnly = true then [] else [.flag adaptive] := by
    refine fun frameMbsOnly => .ite (fun honly => .pure ?_) fun hfields => ?_
    · exact ⟨fun _ => rfl, (if_pos honly).symm⟩
    · refine (Accepts.flag _).mono ?_
      rintro adaptive _ ⟨-, rfl⟩
      exact ⟨fun honly => absurd honly hfields, (if_neg hfields).symm⟩
  unfold readFields
  refine .part (.u8 _) fun profileIdc hprofile => .part (.u8 _) fun flags hflags => ?_
  refine .part (.u8 _) fun levelIdc hlevel => .part (.ueMax _ maxSpsId) fun id hid => ?_
  refine .bind (ChromaInfo.takes _) fun chroma _ ⟨hchroma, hchromaElements⟩ => ?_
  refine .part (.ueMax _ 12) fun frameNum hframeNum => ?_
  refine .part PicOrderCnt.accepts fun picOrderCnt hpicOrderCnt => ?_
  refine .part (.ue _) fun refFrames hrefFrames => .part (.flag _) fun gaps _ => ?_
  refine .part (.ue _) fun width hwidth => .part (.ue _) fun height hheight => ?_
  refine .part (.flag _) fun frameMbsOnly _ => ?_
  refine .branch (hadaptive _) fun adaptive hadaptive => .part (.flag _) fun direct8x8 _ => ?_
  refine .part (.flagged FrameCropping.accepts _) fun cropping hcropping => ?_
  refine .part (.flagged VuiParameters.accepts _) fun vui hvui => .pure ⟨?_, fun hmatrix => ?_⟩
  · exact ⟨hprofile, hflags, hlevel, hid, hchroma, hframeNum, hpicOrderCnt, hrefFrames, hwidth,
      hheight, hadaptive, hcropping, hvui⟩
  · simp [elements, hchromaElements hmatrix]

/-! ## The rules that join several fields -/

theorem pixelDimensions_eq_ok_iff (sps : SeqParameterSet) :
    (∃ size, sps.pixelDimensions = .ok size) ↔ ∀ crop ∈ sps.frameCropping,
      sps.cropUnitX * (crop.left + crop.right) < sps.picWidthInMbs * 16 ∧
      sps.cropUnitY * (crop.top + crop.bottom) < sps.frameHeightInMbs * 16 := by
  unfold pixelDimensions
  cases sps.frameCropping with
  | none => simp
  | some crop =>
    dsimp only
    split
    · rename_i hcolumn
      simp [Nat.not_lt.mpr hcolumn]
    · split
      · rename_i hrow
        simp [Nat.not_lt.mpr hrow]
      · rename_i hcolumn hrow
        simpa using ⟨Nat.not_le.mp hcolumn, Nat.not_le.mp hrow⟩

theorem checkRestrictions_eq_ok_iff (sps : SeqParameterSet) (limits : BitstreamRestrictions) :
    sps.checkRestrictions limits = .ok () ↔ limits.maxDecFrameBuffering ≤ sps.maxDpbFrames ∧
      limits.maxNumReorderFrames ≤ limits.maxDecFrameBuffering := by
  unfold checkRestrictions
  dsimp only
  by_cases hbuffer : sps.maxDpbFrames < limits.maxDecFrameBuffering
  · rw [if_pos hbuffer]
    exact iff_of_false nofun fun h => absurd hbuffer (Nat.not_lt.mpr h.1)
  · rw [if_neg hbuffer]
    by_cases hreorder : limits.maxDecFrameBuffering < limits.maxNumReorderFrames
    · rw [if_pos hreorder]
      exact iff_of_false nofun fun h => absurd hreorder (Nat.not_lt.mpr h.2)
    · rw [if_neg hreorder]
      exact iff_of_true rfl ⟨Nat.not_lt.mp hbuffer, Nat.not_lt.mp hreorder⟩

/-- Fields that are valid by themselves pass the check just if they are valid together. -/
theorem check_eq_ok_iff {sps : SeqParameterSet} (h : sps.ValidFields) :
    sps.check = .ok () ↔ sps.Valid := by
  have hpixels := pixelDimensions_eq_ok_iff sps
  unfold check
  constructor
  · intro hcheck
    obtain ⟨size, hsize, hlimits⟩ := exists_of_bind_eq_ok hcheck
    have hcrop := hpixels.mp ⟨size, hsize⟩
    have hfit : ∀ limits ∈ sps.vui.bind VuiParameters.restrictions,
        limits.maxDecFrameBuffering ≤ sps.maxDpbFrames ∧
          limits.maxNumReorderFrames ≤ limits.maxDecFrameBuffering := by
      intro limits hsome
      rw [Option.mem_def.mp hsome] at hlimits
      exact (checkRestrictions_eq_ok_iff sps limits).mp hlimits
    exact ⟨h, fun crop hc => (hcrop crop hc).1, fun crop hc => (hcrop crop hc).2,
      fun limits hl => (hfit limits hl).1, fun limits hl => (hfit limits hl).2⟩
  · intro hvalid
    obtain ⟨size, hsize⟩ := hpixels.mpr fun crop hc =>
      ⟨hvalid.leavesColumn crop hc, hvalid.leavesRow crop hc⟩
    rw [hsize]
    cases hsome : sps.vui.bind VuiParameters.restrictions with
    | none => rfl
    | some limits =>
      exact (checkRestrictions_eq_ok_iff sps limits).mpr
        ⟨hvalid.fitsPictureBuffer limits hsome, hvalid.reordersWithinBuffer limits hsome⟩

/-! ## Reading -/

theorem readsBack_data {sps : SeqParameterSet} (h : sps.Valid) :
    ReadsBack readData sps.elements sps := by
  unfold readData
  refine .of_append_nil <| .bind (readsBack_fields h.toValidFields) ?_
  exact .step (.ofExcept ((check_eq_ok_iff h.toValidFields).mpr h)) (.pure sps)

theorem takes_data : Takes readData fun sps elements =>
    sps.Valid ∧ (sps.chroma.scalingMatrix = none → elements = sps.elements) := by
  unfold readData
  refine takes_fields.bind fun sps elements ⟨hfields, helements⟩ => ?_
  refine .step (.ofExcept sps.check) fun _ hcheck => .pure ⟨(check_eq_ok_iff hfields).mp hcheck, ?_⟩
  rwa [List.append_nil]

theorem readsClosed {sps : SeqParameterSet} (h : sps.Valid) :
    ReadsClosed read sps.elements sps := by
  unfold read
  exact .of_append_nil <| .bind (readsBack_data h) (.finish sps)

theorem takesClosed : TakesClosed read fun sps elements =>
    sps.Valid ∧ (sps.chroma.scalingMatrix = none → elements = sps.elements) := by
  unfold read
  refine .bind takes_data fun sps elements ⟨hvalid, helements⟩ => .finish ⟨hvalid, ?_⟩
  rwa [List.append_nil]

/-- Reading accepts exactly the writings of valid sequence parameter sets. What a writer makes of a
valid set, closed and with any zero bytes after it, reads back as this set. Conversely only valid
sets are read, and without a scaling matrix the data are bit for bit what a writer makes of the set,
the closing one bit and zero bits. -/
theorem sequence_read_iff_written :
    (∀ sps : SeqParameterSet, sps.Valid →
      ∃ w, Element.writeAll {} sps.elements = .ok w ∧
        ∀ zeros, Read.value read (w.trailing.toBytes ++ List.replicate zeros 0) = .ok sps) ∧
    ∀ (data : Bytes) (sps : SeqParameterSet), Read.value read data = .ok sps →
      sps.Valid ∧ (sps.chroma.scalingMatrix = none →
        ∃ w zeros, Element.writeAll {} sps.elements = .ok w ∧
          Bytes.bits data = w.bits ++ true :: List.replicate zeros false) :=
  ReadsClosed.iff_written (fun _ => readsClosed) takesClosed

/-- A set of the high profile, with cropping and limits, is written and read back. -/
theorem sequence_read_iff_written_cropped :
    let limits : BitstreamRestrictions := {
      motionVectorsOverPicBoundaries := true, maxBytesPerPicDenom := 2, maxBitsPerMbDenom := 1
      log2MaxMvLengthHorizontal := 10, log2MaxMvLengthVertical := 10
      maxNumReorderFrames := 2, maxDecFrameBuffering := 4 }
    let sps : SeqParameterSet := {
      profileIdc := 100, constraintFlags := { value := 0 }, levelIdc := 30, id := 0
      chroma := {}, log2MaxFrameNumMinus4 := 0, picOrderCnt := .lowBits 2
      maxNumRefFrames := 4, gapsInFrameNumAllowed := false
      picWidthInMbsMinus1 := 44, picHeightInMapUnitsMinus1 := 35
      frameMbsOnly := true, mbAdaptiveFrameField := false, direct8x8Inference := true
      frameCropping := some { left := 0, right := 2, top := 0, bottom := 4 }
      vui := some { restrictions := some limits } }
    sps.Valid ∧ ∃ w, Element.writeAll {} sps.elements = .ok w ∧
      ∀ zeros, Read.value read (w.trailing.toBytes ++ List.replicate zeros 0) = .ok sps := by
  intro limits sps
  have hfields : sps.ValidFields := {
    profileIdc := by decide
    constraintFlags := by decide
    levelIdc := by decide
    id := by decide
    chroma := ⟨by decide, by decide, by decide, by simp [sps]⟩
    log2MaxFrameNumMinus4 := by decide
    picOrderCnt := (by decide : 2 ≤ 12)
    maxNumRefFrames := by decide
    picWidthInMbsMinus1 := by decide
    picHeightInMapUnitsMinus1 := by decide
    mbAdaptiveFrameField := fun _ => rfl
    frameCropping := by
      rintro crop ⟨⟩
      exact ⟨by decide, by decide, by decide, by decide⟩
    vui := by
      rintro vui ⟨⟩
      refine ⟨by simp, by simp, by simp, by simp, by simp, by simp, rfl, ?_⟩
      rintro limits ⟨⟩
      exact ⟨by decide, by decide, by decide, by decide, by decide, by decide⟩ }
  have hvalid : sps.Valid := (check_eq_ok_iff hfields).mp (by decide)
  exact ⟨hvalid, sequence_read_iff_written.1 sps hvalid⟩

end SeqParameterSet

end H264
