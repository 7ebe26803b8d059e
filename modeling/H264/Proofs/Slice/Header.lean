import H264.Proofs.Faults.Overwide
import H264.Proofs.Pps.Picture
import H264.Proofs.Slice.Lists
import H264.Proofs.Sps.Sequence

/-!
# Legal slice headers

`SliceHeader.Legal` says which headers are legal in a slice of some form under a picture parameter
set and a sequence parameter set: which fields are present, and the range of each. Main statement:
`SliceHeader.readsBack_as` says that the elements of a legal header read back.
-/

namespace H264

/-! ## Slice types -/

namespace SliceType

theorem id_le (type : SliceType) : type.id ≤ 9 := by
  obtain ⟨family, same⟩ := type
  cases family <;> cases same <;> decide

@[simp] theorem ofId_id (type : SliceType) : ofId type.id = .ok type := by
  obtain ⟨family, same⟩ := type
  cases family <;> cases same <;> rfl

theorem isIntra_iff (type : SliceType) :
    type.isIntra = true ↔ type.family = .i ∨ type.family = .si := by
  simp [isIntra]

theorem usesL1_iff (type : SliceType) : type.usesL1 = true ↔ type.family = .b := by
  simp [usesL1]

end SliceType

/-! ## Legal parts -/

/-- A legal order count; the bottom field's part stands just where it is sent. -/
def SlicePicOrder.Legal (coding : PicOrderCnt) (bottomSent : Bool) (order : SlicePicOrder) :
    Prop :=
  match coding, order with
  | .lowBits log2MaxLsbMinus4, .lowBits lsb deltaBottom =>
    lsb < 2 ^ (log2MaxLsbMinus4 + 4) ∧ deltaBottom.isSome = bottomSent ∧
      ∀ delta ∈ deltaBottom, -Codeword.maxSigned ≤ delta ∧ delta ≤ Codeword.maxSigned
  | .offsets false .., .offsets first second =>
    (-Codeword.maxSigned ≤ first ∧ first ≤ Codeword.maxSigned) ∧
    (-Codeword.maxSigned ≤ second ∧ second ≤ Codeword.maxSigned) ∧
    (bottomSent = false → second = 0)
  | .offsets true .., .inferred => True
  | .decodingOrder, .inferred => True
  | _, _ => False

/-- The greatest number of pictures of a list in use, less one, for a frame or a field. -/
def RefCounts.maximumMinus1 (picStructure : PictureStructure) : Nat :=
  if picStructure = .frame then 15 else 31

/-- Legal numbers of pictures in use: the parameter set's, unless the slice overrides them. -/
structure RefCounts.Legal (pps : PicParameterSet) (type : SliceType)
    (picStructure : PictureStructure) (counts : RefCounts) : Prop where
  overridden : type.usesL0 = false → counts.overridden = false
  l0Default : counts.overridden = false → counts.l0Minus1 = pps.numRefIdxL0DefaultActiveMinus1
  l0Sent : counts.overridden = true → counts.l0Minus1 ≤ maximumMinus1 picStructure
  l1Default : counts.overridden = false ∨ type.usesL1 = false →
    counts.l1Minus1 = pps.numRefIdxL1DefaultActiveMinus1
  l1Sent : counts.overridden = true → type.usesL1 = true →
    counts.l1Minus1 ≤ maximumMinus1 picStructure

/-- A legal quantiser of switching slices. -/
structure SwitchingQuantiser.Legal (pps : PicParameterSet) (type : SliceType)
    (switching : SwitchingQuantiser) : Prop where
  spForSwitch : type.family ≠ .sp → switching.spForSwitch = false
  qsSent : switching.qsDelta.isSome = (type.family == .sp || type.family == .si)
  qs : ∀ delta ∈ switching.qsDelta,
    0 ≤ 26 + pps.picInitQsMinus26 + delta ∧ 26 + pps.picInitQsMinus26 + delta ≤ maxSliceQp

/-- A legal smoothing of block edges; without smoothing there are no offsets. -/
structure Deblocking.Legal (deblocking : Deblocking) : Prop where
  disableIdc : deblocking.disableIdc ≤ 2
  alphaC0OffsetDiv2 : -6 ≤ deblocking.alphaC0OffsetDiv2 ∧ deblocking.alphaC0OffsetDiv2 ≤ 6
  betaOffsetDiv2 : -6 ≤ deblocking.betaOffsetDiv2 ∧ deblocking.betaOffsetDiv2 ≤ 6
  offsets : deblocking.disableIdc = 1 →
    deblocking.alphaC0OffsetDiv2 = 0 ∧ deblocking.betaOffsetDiv2 = 0

namespace SliceHeader

/-- A legal change cycle, sent just where slice groups evolve, in a width that a field can have. -/
def LegalCycle (pps : PicParameterSet) (sps : SeqParameterSet) (cycle : Option Nat) : Prop :=
  match pps.sliceGroups.bind SliceGroups.changeRate? with
  | none => cycle = none
  | some rate =>
    groupChangeCycleBits sps.picSizeInMapUnits rate ≤ Read.maxWidth ∧
      ∃ value, cycle = some value ∧ value ≤ maxGroupChangeCycle sps.picSizeInMapUnits rate

/-- A legal header of a slice of some form that names a picture parameter set and a sequence. -/
structure Legal (form : SliceForm) (pps : PicParameterSet) (sps : SeqParameterSet)
    (header : SliceHeader) : Prop where
  firstMb : header.firstMb ≤ Codeword.maxCodeNumber
  type : form.unitType = .idrSlice → header.type.isIntra = true
  ppsId : header.ppsId ≤ maxPpsId
  colourPlaneIdSent : header.colourPlaneId.isSome = sps.chroma.separateColourPlane
  colourPlaneId : ∀ id ∈ header.colourPlaneId, id ≤ 2
  frameNum : header.frameNum < 2 ^ sps.log2MaxFrameNum
  picStructure : sps.frameMbsOnly = true → header.picStructure = .frame
  idr : header.idr = form.idr
  idrPicIdSent : header.idrPicId.isSome = form.idr
  idrPicId : ∀ id ∈ header.idrPicId, id ≤ 65535
  picOrder : header.picOrder.Legal sps.picOrderCnt
    (pps.bottomFieldPicOrderInFramePresent && header.picStructure == .frame)
  redundantPicCntSent : header.redundantPicCnt.isSome = pps.redundantPicCntPresent
  redundantPicCnt : ∀ count ∈ header.redundantPicCnt, count ≤ 127
  directSpatialMvPredSent : header.directSpatialMvPred.isSome = header.type.usesL1
  refCounts : header.refCounts.Legal pps header.type header.picStructure
  refPicListModification : header.refPicListModification.Legal header.type form.multiview
  predWeightTableSent : header.predWeightTable.isSome = sendsWeights pps header.type
  predWeightTable : ∀ table ∈ header.predWeightTable,
    table.Legal header.type sps.chroma.hasPlanes (header.refCounts.l0Minus1 + 1)
      (header.refCounts.l1Minus1 + 1)
  markingSent : header.marking.isSome = form.isReference
  marking : ∀ marking ∈ header.marking, marking.Legal form.idr
  cabacInitIdcSent :
    header.cabacInitIdc.isSome = (pps.entropyCodingMode && !header.type.isIntra)
  cabacInitIdc : ∀ idc ∈ header.cabacInitIdc, idc ≤ 2
  qp : header.qp = 26 + pps.picInitQpMinus26 + header.qpDelta
  qpRange : -(sps.qpBdOffsetY : Int) ≤ header.qp ∧ header.qp ≤ maxSliceQp
  switching : header.switching.Legal pps header.type
  deblockingSent : pps.deblockingFilterControlPresent = false → header.deblocking = {}
  deblocking : header.deblocking.Legal
  groupChangeCycle : LegalCycle pps sps header.groupChangeCycle

/-! ## Reading back the parts -/

theorem readsBack_type {form : SliceForm} {type : SliceType}
    (h : form.unitType = .idrSlice → type.isIntra = true) :
    ReadsBack (readType form) [.ue type.id] type := by
  have hcode : type.id ≤ Codeword.maxCodeNumber := Nat.le_trans type.id_le (by decide)
  have hgood : ¬(form.unitType = .idrSlice ∧ (!type.isIntra) = true) := by
    rintro ⟨hidr, hinter⟩
    simp [h hidr] at hinter
  unfold readType
  refine .cons (.ue _ hcode) <| .step (.ofExcept type.ofId_id) ?_
  exact .guard hgood (.pure type)

theorem readsBack_colourPlaneId {id : Nat} (h : id ≤ 2) :
    ReadsBack readColourPlaneId [.u 2 id] id := by
  unfold readColourPlaneId
  exact .cons (.bits _ (by decide) (by omega)) <| .guard (Nat.not_lt.mpr h) <| .pure id

theorem readsBack_structure {sps : SeqParameterSet} {picStructure : PictureStructure}
    (h : sps.frameMbsOnly = true → picStructure = .frame) :
    ReadsBack (readStructure sps) (structureElements sps picStructure) picStructure := by
  unfold readStructure structureElements
  refine .ite (fun honly => ?_) fun _ => ?_
  · rw [h honly]
    exact .pure _
  · cases picStructure with
    | frame => exact .cons (.flag _ false) <| .pure _
    | topField => exact .cons (.flag _ true) <| .cons (.flag _ false) <| .pure _
    | bottomField => exact .cons (.flag _ true) <| .cons (.flag _ true) <| .pure _

theorem readsBack_picOrder {coding : PicOrderCnt} {bottomSent : Bool} {order : SlicePicOrder}
    (hcoding : coding.Valid) (h : order.Legal coding bottomSent) :
    ReadsBack (readPicOrder coding bottomSent) (picOrderElements coding bottomSent order) order := by
  unfold readPicOrder picOrderElements
  unfold SlicePicOrder.Legal at h
  split at h
  next log2MaxLsbMinus4 lsb deltaBottom =>
    obtain ⟨hlsb, hsent, hdelta⟩ := h
    have hwidth : log2MaxLsbMinus4 + 4 ≤ Read.maxWidth := by
      have hlow : log2MaxLsbMinus4 ≤ 12 := hcoding
      have hmost : Read.maxWidth = 32 := rfl
      omega
    refine .cons (.bits _ hwidth hlsb) <| .of_append_nil ?_
    exact .bind (.optional hsent fun delta hd => .se _ (hdelta delta hd)) <| .pure _
  next nonRefPic topToBottomField refFrames first second =>
    obtain ⟨hfirst, hsecond, hnone⟩ := h
    have hbottom : ReadsBack
        (if bottomSent = true then Read.se "delta_pic_order_cnt[1]" else Pure.pure 0)
        (if bottomSent = true then [.se second] else []) second :=
      .sentIf (fun _ => .se _ hsecond) hnone
    exact .cons (.se _ hfirst) <| .of_append_nil <| .branch hbottom <| .pure _
  next => exact .pure _
  next => exact .pure _
  next => exact h.elim

theorem readsBack_refCounts {pps : PicParameterSet} {type : SliceType}
    {picStructure : PictureStructure} {counts : RefCounts}
    (h : counts.Legal pps type picStructure) :
    ReadsBack (readRefCounts pps type picStructure) (refCountElements type counts) counts := by
  obtain ⟨overridden, l0Minus1, l1Minus1⟩ := counts
  have hflag : ReadsBack
      (if type.usesL0 = true then Read.flag "num_ref_idx_active_override_flag" else Pure.pure false)
      (if type.usesL0 = true then [.flag overridden] else []) overridden :=
    .sentIf (fun _ => .flag _ _) h.overridden
  unfold readRefCounts refCountElements
  refine .branch hflag ?_
  cases overridden with
  | false =>
    have hl0 : l0Minus1 = pps.numRefIdxL0DefaultActiveMinus1 := h.l0Default rfl
    have hl1 : l1Minus1 = pps.numRefIdxL1DefaultActiveMinus1 := h.l1Default (.inl rfl)
    rw [hl0, hl1]
    exact .pure _
  | true =>
    have hmaximum : (if picStructure = .frame then 15 else 31 : Int) =
        (RefCounts.maximumMinus1 picStructure : Nat) := by
      unfold RefCounts.maximumMinus1
      split <;> rfl
    have hcode : RefCounts.maximumMinus1 picStructure ≤ Codeword.maxCodeNumber := by
      unfold RefCounts.maximumMinus1
      split <;> decide
    have hl1 : ReadsBack
        (if type.usesL1 = true then
          Read.ueMax "num_ref_idx_l1_active_minus1" (RefCounts.maximumMinus1 picStructure)
        else Pure.pure pps.numRefIdxL1DefaultActiveMinus1)
        (if type.usesL1 = true then [.ue l1Minus1] else []) l1Minus1 :=
      .sentIf (fun hused => .ueMax _ (h.l1Sent rfl hused) hcode) fun hunused =>
        h.l1Default (.inr hunused)
    simp only [↓reduceIte, hmaximum]
    exact .cons (.ueMax _ (h.l0Sent rfl) hcode) <| .of_append_nil <| .branch hl1 <| .pure _

theorem readsBack_qp {pps : PicParameterSet} {sps : SeqParameterSet} {delta qp : Int}
    (hinit : -62 ≤ pps.picInitQpMinus26 ∧ pps.picInitQpMinus26 ≤ 25)
    (hdepth : sps.chroma.bitDepthLumaMinus8 ≤ 6) (hqp : qp = 26 + pps.picInitQpMinus26 + delta)
    (hrange : -(sps.qpBdOffsetY : Int) ≤ qp ∧ qp ≤ maxSliceQp) :
    ReadsBack (readQp pps sps) [.se delta] (delta, qp) := by
  have hsigned : Codeword.maxSigned = 2147483647 := rfl
  have hmost : maxSliceQp = 51 := rfl
  have hoffset : sps.qpBdOffsetY = 6 * sps.chroma.bitDepthLumaMinus8 := rfl
  unfold readQp
  -- the initial value and the depth are bounded, so an offset that leads into the range has a code
  refine .cons (.se _ (by omega)) ?_
  rw [← hqp, if_pos hrange]
  exact .pure _

theorem readsBack_qsDelta {pps : PicParameterSet} {delta : Int}
    (hinit : -26 ≤ pps.picInitQsMinus26 ∧ pps.picInitQsMinus26 ≤ 25)
    (h : 0 ≤ 26 + pps.picInitQsMinus26 + delta ∧ 26 + pps.picInitQsMinus26 + delta ≤ maxSliceQp) :
    ReadsBack (readQsDelta pps) [.se delta] delta := by
  have hsigned : Codeword.maxSigned = 2147483647 := rfl
  have hmost : maxSliceQp = 51 := rfl
  unfold readQsDelta
  refine .cons (.se _ (by omega)) ?_
  rw [if_pos h]
  exact .pure _

theorem readsBack_switching {pps : PicParameterSet} {type : SliceType}
    {switching : SwitchingQuantiser}
    (hinit : -26 ≤ pps.picInitQsMinus26 ∧ pps.picInitQsMinus26 ≤ 25)
    (h : switching.Legal pps type) :
    ReadsBack (readSwitching pps type) (switchingElements type switching) switching := by
  -- the family decides which of the two fields are sent
  obtain ⟨family, same⟩ := type
  obtain ⟨spForSwitch, qsDelta⟩ := switching
  obtain ⟨hsp, hsent, hqs⟩ := h
  unfold readSwitching switchingElements
  cases family with
  | sp =>
    obtain ⟨delta, rfl⟩ := Option.isSome_iff_exists.mp hsent
    exact .cons (.flag _ _) <| .cons (readsBack_qsDelta hinit (hqs delta rfl)) <| .pure _
  | si =>
    obtain ⟨delta, rfl⟩ := Option.isSome_iff_exists.mp hsent
    obtain rfl : spForSwitch = false := hsp nofun
    exact .cons (readsBack_qsDelta hinit (hqs delta rfl)) <| .pure _
  | p | b | i =>
    obtain rfl : qsDelta = none :=
      Option.isNone_iff_eq_none.mp (Option.isSome_eq_false_iff.mp hsent)
    obtain rfl : spForSwitch = false := hsp nofun
    exact .pure _

theorem readsBack_deblocking {deblocking : Deblocking} (h : deblocking.Legal) :
    ReadsBack readDeblocking (deblockingElements deblocking) deblocking := by
  obtain ⟨disableIdc, alpha, beta⟩ := deblocking
  unfold readDeblocking deblockingElements
  refine .cons (.ueMax _ h.disableIdc (by decide)) <| .ite (fun hoff => ?_) fun _ => ?_
  · obtain ⟨rfl, rfl⟩ : alpha = 0 ∧ beta = 0 := h.offsets hoff
    exact .pure _
  · exact .cons (.seRange _ h.alphaC0OffsetDiv2 (by decide) (by decide)) <|
      .cons (.seRange _ h.betaOffsetDiv2 (by decide) (by decide)) <| .pure _

theorem readsBack_groupChangeCycle {sps : SeqParameterSet} {rate cycle : Nat} (hrate : 0 < rate)
    (hwidth : groupChangeCycleBits sps.picSizeInMapUnits rate ≤ Read.maxWidth)
    (h : cycle ≤ maxGroupChangeCycle sps.picSizeInMapUnits rate) :
    ReadsBack (readGroupChangeCycle sps rate)
      [.u (groupChangeCycleBits sps.picSizeInMapUnits rate) cycle] cycle := by
  -- the width is one in which the greatest cycle fits
  have hfits := (groupChangeCycleBits_le_iff hrate _).mp
    (Nat.le_refl (groupChangeCycleBits sps.picSizeInMapUnits rate))
  have hcycle : cycle < 2 ^ groupChangeCycleBits sps.picSizeInMapUnits rate := by
    unfold maxGroupChangeCycle at h
    have hlt : sps.picSizeInMapUnits + rate - 1 <
        rate * 2 ^ groupChangeCycleBits sps.picSizeInMapUnits rate := by omega
    exact Nat.lt_of_le_of_lt h (Nat.div_lt_of_lt_mul hlt)
  unfold readGroupChangeCycle
  exact .cons (.bits _ hwidth hcycle) <| .guard (Nat.not_lt.mpr h) <| .pure cycle

/-! ## Reading back the header -/

variable {form : SliceForm} {pps : PicParameterSet} {sps : SeqParameterSet}

/-- The change cycle at the end of a header. -/
theorem readsBack_cycle {β : Type} {cycle : Option Nat} {next : Option Nat → Read β}
    {rest : List Element} {result : β} (h : LegalCycle pps sps cycle)
    (hnext : ReadsBack (next cycle) rest result) :
    ReadsBack
      (match pps.sliceGroups.bind SliceGroups.changeRate? with
        | some rate => some <$> readGroupChangeCycle sps rate >>= next
        | none => Pure.pure none >>= next)
      (Element.sent (groupChangeCycleElements pps sps) cycle ++ rest) result := by
  unfold LegalCycle at h
  cases hrate : pps.sliceGroups.bind SliceGroups.changeRate? with
  | none =>
    rw [hrate] at h
    obtain rfl : cycle = none := h
    exact .bind (.pure none) hnext
  | some rate =>
    rw [hrate] at h
    obtain ⟨hwidth, value, rfl, hvalue⟩ := h
    obtain ⟨groups, -, hgroups⟩ := Option.bind_eq_some_iff.mp hrate
    have hcycle := readsBack_groupChangeCycle (changeRate_pos hgroups) hwidth hvalue
    unfold groupChangeCycleElements Element.sent
    simp only [hrate]
    exact .bind (hcycle.map some) hnext

theorem readsBack_as {sets : ParamSets} {header : SliceHeader}
    (hfind : findParamSets sets form.multiview header.ppsId = .ok (pps, sps))
    {findSps : Nat → Option SeqParameterSet} (hpps : pps.Valid findSps) (hsps : sps.Valid)
    (h : header.Legal form pps sps) :
    ReadsBack (readAs form sets) (header.elements pps sps) header := by
  have hwidth : sps.log2MaxFrameNum ≤ Read.maxWidth := by
    have hlow := hsps.log2MaxFrameNumMinus4
    have hmost : Read.maxWidth = 32 := rfl
    unfold SeqParameterSet.log2MaxFrameNum
    omega
  have hdeblocking : ReadsBack
      (if pps.deblockingFilterControlPresent = true then readDeblocking else Pure.pure {})
      (if pps.deblockingFilterControlPresent = true then deblockingElements header.deblocking
        else []) header.deblocking :=
    .sentIf (fun _ => readsBack_deblocking h.deblocking) h.deblockingSent
  unfold readAs elements
  simp only [List.cons_append, List.nil_append, List.append_assoc, Element.sent_map]
  refine .cons (.ue _ h.firstMb) <| .cons (readsBack_type h.type) ?_
  refine .cons (.ueMax _ h.ppsId (by decide)) <| .step (.ofExcept hfind) ?_
  unfold readBody
  -- from here on, the fields in the order in which they are sent
  refine .bind (.optional h.colourPlaneIdSent fun x hx =>
    readsBack_colourPlaneId (h.colourPlaneId x hx)) ?_
  refine .cons (.bits _ hwidth h.frameNum) <| .bind (readsBack_structure h.picStructure) ?_
  refine .bind (.optional h.idrPicIdSent fun x hx => .ueMax _ (h.idrPicId x hx) (by decide)) ?_
  refine .bind (readsBack_picOrder hsps.picOrderCnt h.picOrder) ?_
  refine .bind (.optional h.redundantPicCntSent fun x hx =>
    .ueMax _ (h.redundantPicCnt x hx) (by decide)) ?_
  refine .bind (.optional h.directSpatialMvPredSent fun x _ => .flag _ x) ?_
  refine .bind (readsBack_refCounts h.refCounts) ?_
  refine .bind (RefPicListModification.readsBack h.refPicListModification) ?_
  refine .bind (.optional h.predWeightTableSent fun x hx =>
    PredWeightTable.readsBack (h.predWeightTable x hx)) ?_
  refine .bind (.optional h.markingSent fun x hx => DecRefPicMarking.readsBack (h.marking x hx)) ?_
  refine .bind (.optional h.cabacInitIdcSent fun x hx =>
    .ueMax _ (h.cabacInitIdc x hx) (by decide)) ?_
  have hdepth := ChromaInfo.bitDepthLumaMinus8_le hsps.chroma
  refine .cons (readsBack_qp hpps.picInitQpMinus26 hdepth h.qp h.qpRange) ?_
  refine .bind (readsBack_switching hpps.picInitQsMinus26 h.switching) ?_
  refine .branch hdeblocking <| .of_append_nil <| readsBack_cycle h.groupChangeCycle ?_
  rw [← h.idr]
  exact .pure header

end SliceHeader

end H264
