import H264.Proofs.Bits.Reserved
import H264.Proofs.Sps.Sequence
import H264.Proofs.SubsetSps.Extensions
import H264.SubsetSps.Basic

/-!
# Valid subset sequence parameter sets

`SubsetSps.Valid` says which subset sequence parameter sets can be written whole: a valid sequence
parameter set with the extension that its profile asks for, and nothing behind it. Main statement:
`SubsetSps.subset_read_back` says that what a writer makes of such a set reads back as this set.
-/

namespace H264

/-- A valid extension of a sequence that ends with the fields that are decoded: that of a scalable
profile (83 and 86) or of a multiview profile (118, 128 and 134), and none for the profiles without
one. -/
def SubsetExtension.Valid (sps : SeqParameterSet) : Option SubsetExtension → Prop
  | none => sps.profileIdc ∉ [83, 86, 118, 128, 134, 135, 138, 139]
  | some (svc fields) => sps.profileIdc ∈ [83, 86] ∧
    fields.Valid sps.chroma.arrayType ∧ fields.vuiParametersPresent = false
  | some (mvc fields vuiParametersPresent) => sps.profileIdc ∈ [118, 128, 134] ∧
    fields.Valid ∧ vuiParametersPresent = false
  | some depth => False

/-- A valid subset sequence parameter set that announces no further extensions. -/
structure SubsetSps.Valid (subset : SubsetSps) : Prop where
  sps : subset.sps.Valid
  extension : SubsetExtension.Valid subset.sps subset.extension
  additionalExtension2 : subset.additionalExtension2 = false

namespace SubsetExtension

/-- A valid extension is decoded to its end. -/
theorem any_hasUndecodedTail {sps : SeqParameterSet} {extension : Option SubsetExtension}
    (h : Valid sps extension) : extension.any hasUndecodedTail = false := by
  cases extension with
  | none => rfl
  | some extension =>
    cases extension with
    | svc fields => exact h.2.2
    | mvc fields vuiParametersPresent => exact h.2.2
    | depth => exact absurd h id

/-! The profile numbers are those of the groups that the reader tells apart. -/

theorem mem_scalableIdcs {profileIdc : Nat} (h : profileIdc ∈ [83, 86]) :
    profileIdc ∈ Profile.scalableIdcs := h

theorem mem_multiviewIdcs {profileIdc : Nat} (h : profileIdc ∈ [118, 128, 134]) :
    profileIdc ∉ Profile.scalableIdcs ∧ profileIdc ∈ Profile.multiviewIdcs := by
  have hapart : ∀ idc ∈ [118, 128, 134], idc ∉ Profile.scalableIdcs := by decide
  exact ⟨hapart profileIdc h, h⟩

theorem not_mem_idcs {profileIdc : Nat}
    (h : profileIdc ∉ [83, 86, 118, 128, 134, 135, 138, 139]) :
    profileIdc ∉ Profile.scalableIdcs ∧ profileIdc ∉ Profile.multiviewIdcs ∧
      profileIdc ∉ Profile.depthIdcs := by
  have hgroups : profileIdc ∉ Profile.scalableIdcs ++ Profile.multiviewIdcs ++
      Profile.depthIdcs := h
  simpa only [List.mem_append, not_or, and_assoc] using hgroups

/-- The extension that a profile asks for reads back, and so does none. -/
theorem readsBack {sps : SeqParameterSet} {extension : Option SubsetExtension}
    (h : Valid sps extension) :
    ReadsBack (read sps) (Element.sent (elements sps) extension) extension := by
  unfold read
  simp only [List.contains_iff_mem]
  cases extension with
  | none =>
    obtain ⟨hscalable, hmultiview, hdepth⟩ := not_mem_idcs h
    rw [if_neg hscalable, if_neg hmultiview, if_neg hdepth]
    exact .pure none
  | some extension =>
    cases extension with
    | svc fields =>
      obtain ⟨hscalable, hfields, -⟩ := h
      rw [if_pos (mem_scalableIdcs hscalable)]
      refine .cons (.flag _ true) <| .of_append_nil ?_
      exact .bind (SvcSpsExtension.readsBack hfields) <| .pure _
    | mvc fields vuiParametersPresent =>
      obtain ⟨hprofile, hfields, -⟩ := h
      obtain ⟨hscalable, hmultiview⟩ := mem_multiviewIdcs hprofile
      rw [if_neg hscalable, if_pos hmultiview]
      refine .cons (.flag _ true) <| .bind (MvcSpsExtension.readsBack hfields) ?_
      exact .cons (.flag _ _) <| .pure _
    | depth => exact absurd h id

end SubsetExtension

namespace SubsetSps

/-- Reserved bits stand before the close only where the flag announces them. -/
theorem readsClosed_tail (additional : Bool) (reserved : List Bool)
    (h : additional = false → reserved = []) :
    ReadsClosed readTail (.flag additional :: reserved.map Element.flag) additional := by
  unfold readTail
  exact .cons (.flag _ additional) <| .reserved h additional

/-- A valid set with the flag for further extensions set or clear, and bits that it announces. -/
theorem readsClosed_reserved {subset : SubsetSps} (h : subset.Valid) (additional : Bool)
    (reserved : List Bool) (hreserved : additional = false → reserved = []) :
    ReadsClosed read
      (elements { subset with additionalExtension2 := additional } ++ reserved.map Element.flag)
      { subset with additionalExtension2 := additional } := by
  obtain ⟨sps, extension, additionalExtension2⟩ := subset
  obtain ⟨hsps, hextension, -⟩ := h
  dsimp only at hsps hextension
  unfold read elements
  simp only [List.append_assoc, List.singleton_append]
  refine .bind (SeqParameterSet.readsBack_data hsps) ?_
  refine .bind (SubsetExtension.readsBack hextension) ?_
  rw [SubsetExtension.any_hasUndecodedTail hextension, if_neg Bool.false_ne_true]
  exact (readsClosed_tail additional reserved hreserved).map (SubsetSps.mk sps extension)

theorem readsClosed {subset : SubsetSps} (h : subset.Valid) :
    ReadsClosed read subset.elements subset := by
  have hplain : subset = { subset with additionalExtension2 := false } := by
    rw [← h.additionalExtension2]
  rw [hplain]
  exact .of_append_nil <| readsClosed_reserved h false [] fun _ => rfl

/-- **Subset sequence parameter sets read back.** A writer takes the elements of a valid set: its
sequence parameter set, for a scalable or multiview profile a one bit, the extension and a cleared
flag for what is not decoded, and then a cleared flag for further extensions. What it makes of them,
closed and with any zero bytes after it, reads back as this set, each view with the references that
were written for it. -/
theorem subset_read_back {subset : SubsetSps} (h : subset.Valid) :
    ∃ w, Element.writeAll {} subset.elements = .ok w ∧
      ∀ zeros, Read.value read (w.trailing.toBytes ++ List.replicate zeros 0) = .ok subset :=
  (readsClosed h).exists_writer

/-- A set of three views, two of which refer to others, and one whose reference layer has another
size are written and read back. -/
theorem subset_read_back_bothExtensions :
    let sps : SeqParameterSet := {
      profileIdc := 118, constraintFlags := { value := 0 }, levelIdc := 40, id := 1
      chroma := {}, log2MaxFrameNumMinus4 := 4, picOrderCnt := .decodingOrder
      maxNumRefFrames := 2, gapsInFrameNumAllowed := false
      picWidthInMbsMinus1 := 119, picHeightInMapUnitsMinus1 := 67
      frameMbsOnly := true, mbAdaptiveFrameField := false, direct8x8Inference := true
      frameCropping := none, vui := none }
    let views : List MvcView := [{ id := 0 },
      { id := 3, anchorRefsL0 := [0], nonAnchorRefsL0 := [0] },
      { id := 5, anchorRefsL0 := [0], anchorRefsL1 := [3], nonAnchorRefsL1 := [3, 0] }]
    let point : MvcOperationPoint := {
      temporalId := 2, targetViewIds := [0, 3, 5], numViewsMinus1 := 2 }
    let fields : MvcSpsExtension := { views, levelValues := [{ levelIdc := 40, points := [point] }] }
    let multiview : SubsetSps := { sps, extension := some (.mvc fields false) }
    let layer : SvcSpsExtension := {
      interLayerDeblockingFilterControlPresent := true, extendedSpatialScalabilityIdc := 1
      chromaPhaseXPlus1 := true, chromaPhaseYPlus1 := 2
      refLayerChromaPhaseXPlus1 := false, refLayerChromaPhaseYPlus1 := 3
      scaledRefLayerLeftOffset := -3, scaledRefLayerTopOffset := 2
      scaledRefLayerRightOffset := 0, scaledRefLayerBottomOffset := 7
      tcoeffLevelPrediction := true, adaptiveTcoeffLevelPrediction := true
      sliceHeaderRestriction := false, vuiParametersPresent := false }
    let scalable : SubsetSps :=
      { sps := { sps with profileIdc := 86 }, extension := some (.svc layer) }
    (multiview.Valid ∧ ∃ w, Element.writeAll {} multiview.elements = .ok w ∧
      ∀ zeros, Read.value read (w.trailing.toBytes ++ List.replicate zeros 0) = .ok multiview) ∧
    scalable.Valid ∧ ∃ w, Element.writeAll {} scalable.elements = .ok w ∧
      ∀ zeros, Read.value read (w.trailing.toBytes ++ List.replicate zeros 0) = .ok scalable := by
  intro sps views point fields multiview layer scalable
  have hsps : sps.ValidFields := {
    profileIdc := by decide
    constraintFlags := by decide
    levelIdc := by decide
    id := by decide
    chroma := ⟨by decide, by decide, by decide, nofun⟩
    log2MaxFrameNumMinus4 := by decide
    picOrderCnt := trivial
    maxNumRefFrames := by decide
    picWidthInMbsMinus1 := by decide
    picHeightInMapUnitsMinus1 := by decide
    mbAdaptiveFrameField := fun _ => rfl
    frameCropping := by simp [sps]
    vui := by simp [sps] }
  have hother : SeqParameterSet.ValidFields { sps with profileIdc := 86 } :=
    { hsps with profileIdc := by decide, chroma := hsps.chroma }
  have hmultiview : sps.Valid := (SeqParameterSet.check_eq_ok_iff hsps).mp (by decide)
  have hscalable : SeqParameterSet.Valid { sps with profileIdc := 86 } :=
    (SeqParameterSet.check_eq_ok_iff hother).mp (by decide)
  have hfields : fields.Valid := by decide
  have hlayer : layer.Valid 1 := {
    extendedSpatialScalabilityIdc := by decide
    phases := ⟨by decide, by decide, by decide⟩
    refLayerPhases := ⟨by decide, by decide, by decide⟩
    left := ⟨by decide, by decide⟩
    top := ⟨by decide, by decide⟩
    right := ⟨by decide, by decide⟩
    bottom := ⟨by decide, by decide⟩
    adaptiveTcoeffLevelPrediction := by decide }
  have hviews : multiview.Valid := ⟨hmultiview, ⟨by decide, hfields, rfl⟩, rfl⟩
  have hlayers : scalable.Valid := ⟨hscalable, ⟨by decide, hlayer, rfl⟩, rfl⟩
  exact ⟨⟨hviews, subset_read_back hviews⟩, hlayers, subset_read_back hlayers⟩

end SubsetSps

end H264
