import H264.ParamSets
import H264.Proofs.Bits.Closed
import H264.Proofs.Faults.Picture
import H264.Proofs.Scaling.Lists

/-!
# Valid picture parameter sets

`PicParameterSet.Valid` says which picture parameter sets are valid where some sequence parameter
sets are known. Main statement: `PicParameterSet.picture_read_iff_written` says that reading accepts
exactly the writings of valid sets: the fields at the end are found by looking ahead, and 8x8 scaling
lists are as many as the sequence that the set names asks for.
-/

namespace H264

/-! ## Slice groups -/

theorem lt_two_pow_ceilLog2 {countMinus1 : Int} {id : Nat} (h : (id : Int) ≤ countMinus1) :
    id < 2 ^ ceilLog2 (countMinus1 + 1) := by
  have hbelow : (countMinus1 + 1 - 1).natAbs = countMinus1.toNat := by omega
  unfold ceilLog2
  dsimp only
  rw [hbelow]
  by_cases hzero : countMinus1.toNat = 0
  · rw [if_pos hzero]
    omega
  · have hlog := Nat.lt_log2_self (n := countMinus1.toNat)
    rw [if_neg hzero]
    omega

/-- A rectangle whose corners have a code. -/
structure SliceGroupRect.Valid (rect : SliceGroupRect) : Prop where
  topLeft : rect.topLeft ≤ Codeword.maxCodeNumber
  bottomRight : rect.bottomRight ≤ Codeword.maxCodeNumber

namespace SliceGroupMap

/-- A valid map for `countMinus1 + 1` groups: one run for each group, one rectangle for each but the
last, or the group of each map unit. -/
def Valid (countMinus1 : Int) : SliceGroupMap → Prop
  | interleaved runLengthsMinus1 =>
    runLengthsMinus1.length = (countMinus1 + 1).toNat ∧
      ∀ run ∈ runLengthsMinus1, run ≤ Codeword.maxCodeNumber
  | dispersed => True
  | foreground rectangles =>
    rectangles.length = countMinus1.toNat ∧ ∀ rect ∈ rectangles, rect.Valid
  | evolving _ _ changeRateMinus1 => changeRateMinus1 ≤ Codeword.maxCodeNumber
  | explicit groupIds =>
    (1 ≤ groupIds.length ∧ groupIds.length - 1 ≤ Codeword.maxCodeNumber) ∧
      ∀ id ∈ groupIds, (id : Int) ≤ countMinus1

variable {countMinus1 : Int}

theorem readsBack_groupId {id : Nat} (hnonneg : 0 ≤ countMinus1) (hmost : countMinus1 ≤ 7)
    (h : (id : Int) ≤ countMinus1) :
    ReadsBack (readGroupId countMinus1) [.u (ceilLog2 (countMinus1 + 1)) id] id := by
  have hwidth : ceilLog2 (countMinus1 + 1) ≤ Read.maxWidth :=
    Nat.le_trans (ceilLog2_le (by omega) (by omega)) (by decide)
  unfold readGroupId
  exact .cons (.bits _ hwidth (lt_two_pow_ceilLog2 h)) <| .guard (Int.not_lt.mpr h) <| .pure id

theorem accepts_groupId (countMinus1 : Int) : Accepts (readGroupId countMinus1)
    (fun id => (id : Int) ≤ countMinus1) fun id => [.u (ceilLog2 (countMinus1 + 1)) id] := by
  unfold readGroupId
  exact .part (.bits _ _) fun id _ => .guard fun h => .pure ⟨Int.not_lt.mp h, rfl⟩

theorem readsBack_rect {rect : SliceGroupRect} (h : rect.Valid) :
    ReadsBack readRect [.ue rect.topLeft, .ue rect.bottomRight] rect :=
  .cons (.ue _ h.topLeft) <| .cons (.ue _ h.bottomRight) <| .pure _

theorem accepts_rect : Accepts readRect SliceGroupRect.Valid
    fun rect => [.ue rect.topLeft, .ue rect.bottomRight] :=
  .part (.ue _) fun _ htop => .part (.ue _) fun _ hbottom => .pure ⟨⟨htop, hbottom⟩, rfl⟩

theorem type_le (map : SliceGroupMap) : map.type ≤ 6 := by
  cases map with
  | evolving kind => cases kind <;> simp [type, EvolvingMap.type]
  | _ => simp [type]

theorem readsBack {map : SliceGroupMap} (hnonneg : 0 ≤ countMinus1) (hmost : countMinus1 ≤ 7)
    (h : map.Valid countMinus1) :
    ReadsBack (read countMinus1) (map.elements countMinus1) map := by
  unfold read elements
  refine .cons (.ueMax _ map.type_le (by decide)) ?_
  cases map with
  | interleaved runs =>
    dsimp only
    rw [List.map_eq_flatMap]
    exact .of_append_nil <| .bind (.times h.1 fun run hrun => .ue _ (h.2 run hrun)) <| .pure _
  | dispersed => exact .pure _
  | foreground rectangles =>
    exact .of_append_nil <| .bind (.times h.1 fun rect hrect => readsBack_rect (h.2 rect hrect)) <| .pure _
  | evolving kind direction rate =>
    cases kind with
    | boxOut => exact .cons (.flag _ _) <| .cons (.ue _ h) <| .pure _
    | rasterScan => exact .cons (.flag _ _) <| .cons (.ue _ h) <| .pure _
    | wipe => exact .cons (.flag _ _) <| .cons (.ue _ h) <| .pure _
  | explicit ids =>
    obtain ⟨⟨hsome, hcode⟩, hids⟩ := h
    dsimp only
    rw [List.map_eq_flatMap]
    refine .cons (.ue _ hcode) <| .of_append_nil <| .bind (.times (by omega) fun id hid => ?_) <|
      .pure _
    exact readsBack_groupId hnonneg hmost (hids id hid)

theorem takes_evolving (kind : EvolvingMap) : Takes (readEvolving kind) fun map back =>
    map.Valid countMinus1 ∧ .ue kind.type :: back = map.elements countMinus1 := by
  unfold readEvolving
  exact .part (.flag _) fun direction _ => .part (.ue _) fun rate hrate => .pure ⟨hrate, rfl⟩

theorem accepts (countMinus1 : Int) :
    Accepts (read countMinus1) (Valid countMinus1) (elements countMinus1) := by
  unfold read
  refine .part (.ueMax _ 6) fun type htype => ?_
  -- the type decides the layout; three of the seven share one
  have hcases : type = 0 ∨ type = 1 ∨ type = 2 ∨ type = 3 ∨ type = 4 ∨ type = 5 ∨ type = 6 := by
    omega
  rcases hcases with rfl | rfl | rfl | rfl | rfl | rfl | rfl
  · refine .part (.times (.ue _) _) fun runs hruns => .pure ⟨hruns, ?_⟩
    simp [elements, SliceGroupMap.type, List.map_eq_flatMap]
  · exact .pure ⟨trivial, rfl⟩
  · refine .part (.times accepts_rect _) fun rectangles hrectangles => .pure ⟨hrectangles, ?_⟩
    simp [elements, SliceGroupMap.type]
  · exact takes_evolving .boxOut
  · exact takes_evolving .rasterScan
  · exact takes_evolving .wipe
  · -- one id more follows than the number that is sent
    refine .part (.ue _) fun sizeMinus1 hsize => ?_
    refine .part (.times (accepts_groupId _) _) fun ids ⟨hlength, hids⟩ => .pure ⟨⟨?_, hids⟩, ?_⟩
    · omega
    · simp [elements, SliceGroupMap.type, hlength, List.map_eq_flatMap]

end SliceGroupMap

namespace SliceGroups

/-- Valid slice groups, two to eight of them. -/
structure Valid (groups : SliceGroups) : Prop where
  countMinus1 : 1 ≤ groups.countMinus1 ∧ groups.countMinus1 ≤ 7
  map : groups.map.Valid groups.countMinus1

theorem readsBack {groups : SliceGroups} (h : groups.Valid) :
    ReadsBack (read groups.countMinus1) groups.elements groups := by
  obtain ⟨hpos, hmost⟩ := h.countMinus1
  exact (SliceGroupMap.readsBack (by omega) hmost h.map).map (SliceGroups.mk groups.countMinus1)

theorem accepts (countMinus1 : Int) (hpos : 1 ≤ countMinus1) (hmost : countMinus1 ≤ 7) :
    Accepts (read countMinus1) (fun groups => groups.Valid ∧ groups.countMinus1 = countMinus1)
      elements := by
  unfold read
  refine .part (SliceGroupMap.accepts countMinus1) fun map hmap => .pure ⟨?_, ?_⟩
  · exact ⟨⟨⟨hpos, hmost⟩, hmap⟩, rfl⟩
  · rw [List.append_nil]
    rfl

end SliceGroups

/-! ## The fields at the end -/

/-- Valid fields at the end of a picture parameter set that names the sequence `spsId`: six scaling
lists without 8x8 transforms, and with them as many as the sequence has. -/
structure PicScalingExtension.Valid (findSps : Nat → Option SeqParameterSet) (spsId : Nat)
    (extension : PicScalingExtension) : Prop where
  lists4x4 : extension.transform8x8Mode = false →
    ∀ matrix ∈ extension.scalingMatrix, matrix.Valid 6
  lists8x8 : extension.transform8x8Mode = true → ∀ matrix ∈ extension.scalingMatrix,
    ∃ sps, findSps spsId = some sps ∧
      matrix.Valid (if sps.chroma.format = .yuv444 then 12 else 8)
  secondChromaQpIndexOffset : -12 ≤ extension.secondChromaQpIndexOffset ∧
    extension.secondChromaQpIndexOffset ≤ 12

namespace PicParameterSet

section

variable {findSps : Nat → Option SeqParameterSet} {spsId : Nat}

theorem readsBack_extension {extension : PicScalingExtension}
    (h : extension.Valid findSps spsId) :
    ReadsBack (readExtension findSps spsId) extension.elements extension := by
  have hmatrix : ∀ matrix ∈ extension.scalingMatrix, ReadsBack
      (readScalingMatrix findSps spsId extension.transform8x8Mode) matrix.elements matrix := by
    intro matrix hsent
    unfold readScalingMatrix
    cases hmode : extension.transform8x8Mode with
    | false => exact ScalingMatrix.readsBack (h.lists4x4 hmode matrix hsent)
    | true =>
      obtain ⟨sps, hsps, hvalid⟩ := h.lists8x8 hmode matrix hsent
      rw [if_pos rfl, hsps]
      exact ScalingMatrix.readsBack hvalid
  unfold readExtension PicScalingExtension.elements
  simp only [List.cons_append, List.nil_append]
  refine .cons (.flag _ _) <| .bind (.flagged _ hmatrix) ?_
  exact .cons (.seRange _ h.secondChromaQpIndexOffset (by decide) (by decide)) <| .pure _

theorem takes_scalingMatrix (transform8x8Mode : Bool) :
    Takes (readScalingMatrix findSps spsId transform8x8Mode) fun matrix _ =>
      (transform8x8Mode = false → matrix.Valid 6) ∧
      (transform8x8Mode = true → ∃ sps, findSps spsId = some sps ∧
        matrix.Valid (if sps.chroma.format = .yuv444 then 12 else 8)) := by
  unfold readScalingMatrix
  cases transform8x8Mode with
  | false => exact (ScalingMatrix.takes 6).mono fun matrix _ h => ⟨fun _ => h, nofun⟩
  | true =>
    rw [if_pos rfl]
    cases hsps : findSps spsId with
    | none => exact .fail _ _
    | some sps =>
      exact (ScalingMatrix.takes _).mono fun matrix _ h => ⟨nofun, fun _ => ⟨sps, rfl, h⟩⟩

theorem takes_extension : Takes (readExtension findSps spsId) fun extension elements =>
    extension.Valid findSps spsId ∧
      (extension.scalingMatrix = none → elements = extension.elements) := by
  unfold readExtension
  refine .part (.flag _) fun mode _ => ?_
  refine .bind (.flagged (takes_scalingMatrix mode) _) fun matrix _ ⟨rest, hrest, hmatrix⟩ => ?_
  refine .part (.seRange _ _ _) fun offset hoffset => .pure ⟨⟨?_, ?_, hoffset⟩, ?_⟩
  · rintro rfl sent rfl
    exact hmatrix.1 rfl
  · rintro rfl sent rfl
    exact hmatrix.2 rfl
  · rintro rfl
    have hend : rest = [] := hmatrix
    simp [PicScalingExtension.elements, Element.flagged, Element.sent, hrest, hend]

end

/-! ## Picture parameter sets -/

/-- A picture parameter set that is valid where `findSps` gives the known sequences. -/
structure Valid (findSps : Nat → Option SeqParameterSet) (pps : PicParameterSet) : Prop where
  id : pps.id ≤ maxPpsId
  spsId : pps.spsId ≤ maxSpsId
  sliceGroups : ∀ groups ∈ pps.sliceGroups, groups.Valid
  numRefIdxL0DefaultActiveMinus1 : pps.numRefIdxL0DefaultActiveMinus1 ≤ 31
  numRefIdxL1DefaultActiveMinus1 : pps.numRefIdxL1DefaultActiveMinus1 ≤ 31
  weightedBipredIdc : pps.weightedBipredIdc ≤ 2
  picInitQpMinus26 : -62 ≤ pps.picInitQpMinus26 ∧ pps.picInitQpMinus26 ≤ 25
  picInitQsMinus26 : -26 ≤ pps.picInitQsMinus26 ∧ pps.picInitQsMinus26 ≤ 25
  chromaQpIndexOffset : -12 ≤ pps.chromaQpIndexOffset ∧ pps.chromaQpIndexOffset ≤ 12
  extension : ∀ extension ∈ pps.extension, extension.Valid findSps pps.spsId

theorem readsBack_bipred {idc : Nat} (h : idc ≤ 2) :
    ReadsBack readWeightedBipredIdc [.u 2 idc] idc := by
  unfold readWeightedBipredIdc
  exact .cons (.bits _ (by decide) (by omega)) <| .guard (Nat.not_lt.mpr h) <| .pure idc

theorem accepts_bipred : Accepts readWeightedBipredIdc (· ≤ 2) fun idc => [.u 2 idc] := by
  unfold readWeightedBipredIdc
  exact .part (.bits _ _) fun idc _ => .guard fun h => .pure ⟨Nat.not_lt.mp h, rfl⟩

/-- The number of groups that is sent is not zero just where groups are sent. -/
theorem sliceGroupCountMinus1_ne_zero {pps : PicParameterSet}
    (h : ∀ groups ∈ pps.sliceGroups, groups.Valid) :
    pps.sliceGroups.isSome = (pps.sliceGroupCountMinus1 != 0) ∧ pps.sliceGroupCountMinus1 ≤ 7 ∧
      ∀ groups ∈ pps.sliceGroups, (pps.sliceGroupCountMinus1 : Int) = groups.countMinus1 := by
  unfold sliceGroupCountMinus1
  cases hgroups : pps.sliceGroups with
  | none => simp
  | some groups =>
    obtain ⟨hpos, hmost⟩ := (h groups hgroups).countMinus1
    simp
    omega

/-- The groups that are read after their number, none where it is zero. -/
theorem accepts_groups {count : Nat} (hcount : count ≤ 7) :
    Accepts (Read.optional (count != 0) (SliceGroups.read count))
      (fun groups => (∀ sent ∈ groups, sent.Valid) ∧
        (groups.map fun sent => sent.countMinus1.toNat).getD 0 = count)
      (Element.sent SliceGroups.elements) := by
  by_cases hzero : count = 0
  · subst hzero
    exact .pure ⟨⟨by simp, rfl⟩, rfl⟩
  · have hsent := Accepts.optional (SliceGroups.accepts count (by omega) (by omega)) (count != 0)
    refine hsent.mono ?_
    rintro groups _ ⟨⟨hpresent, hgroups⟩, rfl⟩
    refine ⟨⟨fun sent hmem => (hgroups sent hmem).1, ?_⟩, rfl⟩
    cases groups with
    | none => simp [hzero] at hpresent
    | some sent => simp [(hgroups sent rfl).2]

variable {findSps : Nat → Option SeqParameterSet}

theorem readsClosed {pps : PicParameterSet} (h : pps.Valid findSps) :
    ReadsClosed (read findSps) pps.elements pps := by
  obtain ⟨hpresent, hmost, hcount⟩ := sliceGroupCountMinus1_ne_zero h.sliceGroups
  have hgroups : ∀ groups ∈ pps.sliceGroups,
      ReadsBack (SliceGroups.read pps.sliceGroupCountMinus1) groups.elements groups := by
    intro groups hsent
    rw [hcount groups hsent]
    exact SliceGroups.readsBack (h.sliceGroups groups hsent)
  -- the fields at the end begin with a flag, so that the look-ahead finds them
  have hmore : pps.extension.isSome =
      !(Element.bits (Element.sent PicScalingExtension.elements pps.extension)).isEmpty := by
    cases pps.extension with
    | none => rfl
    | some extension => simp [Element.sent, PicScalingExtension.elements]
  unfold read elements
  simp only [List.cons_append, List.nil_append, List.append_assoc]
  refine .cons (.ueMax _ h.id (by decide)) <| .cons (.ueMax _ h.spsId (by decide)) ?_
  refine .cons (.flag _ _) <| .cons (.flag _ _) <| .cons (.ueMax _ hmost (by decide)) ?_
  refine .bind (.optional hpresent hgroups) ?_
  refine .cons (.ueMax _ h.numRefIdxL0DefaultActiveMinus1 (by decide)) ?_
  refine .cons (.ueMax _ h.numRefIdxL1DefaultActiveMinus1 (by decide)) ?_
  refine .cons (.flag _ _) <| .cons (readsBack_bipred h.weightedBipredIdc) ?_
  refine .cons (.seRange _ h.picInitQpMinus26 (by decide) (by decide)) ?_
  refine .cons (.seRange _ h.picInitQsMinus26 (by decide) (by decide)) ?_
  refine .cons (.seRange _ h.chromaQpIndexOffset (by decide) (by decide)) ?_
  refine .cons (.flag _ _) <| .cons (.flag _ _) <| .cons (.flag _ _) <| .more ?_
  rw [← hmore]
  refine .of_append_nil ?_
  exact .bind (.optional rfl fun x hx => readsBack_extension (h.extension x hx)) <| .finish pps

theorem takesClosed : TakesClosed (read findSps) fun pps elements => pps.Valid findSps ∧
    (pps.extension.bind PicScalingExtension.scalingMatrix = none → elements = pps.elements) := by
  unfold read
  refine .part (.ueMax _ maxPpsId) fun id hid => .part (.ueMax _ maxSpsId) fun spsId hspsId => ?_
  refine .part (.flag _) fun entropyCoding _ => .part (.flag _) fun bottomField _ => ?_
  refine .part (.ueMax _ 7) fun count hcount => ?_
  refine .part (accepts_groups hcount) fun groups ⟨hgroups, hminus⟩ => ?_
  refine .part (.ueMax _ 31) fun l0 hl0 => .part (.ueMax _ 31) fun l1 hl1 => ?_
  refine .part (.flag _) fun weightedPred _ => .part accepts_bipred fun bipred hbipred => ?_
  refine .part (.seRange _ _ _) fun qp hqp => .part (.seRange _ _ _) fun qs hqs => ?_
  refine .part (.seRange _ _ _) fun chromaOffset hchroma => .part (.flag _) fun filter _ => ?_
  refine .part (.flag _) fun constrained _ => .part (.flag _) fun redundant _ => ?_
  refine .step .more fun more _ => ?_
  refine .bind (.optional takes_extension more) fun extension back ⟨_, hextension⟩ => ?_
  refine .finish ⟨⟨hid, hspsId, hgroups, hl0, hl1, hbipred, hqp, hqs, hchroma, ?_⟩, ?_⟩
  · rintro sent rfl
    exact hextension.1
  · intro hmatrix
    have hback : back = Element.sent PicScalingExtension.elements extension := by
      cases extension with
      | none => exact hextension
      | some sent => exact hextension.2 hmatrix
    simp [elements, sliceGroupCountMinus1, hminus, hback]

/-- Reading accepts exactly the writings of valid picture parameter sets, whatever sequences are
known. What a writer makes of a valid set, closed and with any zero bytes after it, reads back as
this set. Conversely only valid sets are read, and without a scaling matrix the data are bit for bit
what a writer makes of the set, the closing one bit and zero bits. -/
theorem picture_read_iff_written (findSps : Nat → Option SeqParameterSet) :
    (∀ pps : PicParameterSet, pps.Valid findSps →
      ∃ w, Element.writeAll {} pps.elements = .ok w ∧ ∀ zeros,
        Read.value (read findSps) (w.trailing.toBytes ++ List.replicate zeros 0) = .ok pps) ∧
    ∀ (data : Bytes) (pps : PicParameterSet), Read.value (read findSps) data = .ok pps →
      pps.Valid findSps ∧ (pps.extension.bind PicScalingExtension.scalingMatrix = none →
        ∃ w zeros, Element.writeAll {} pps.elements = .ok w ∧
          Bytes.bits data = w.bits ++ true :: List.replicate zeros false) :=
  ReadsClosed.iff_written (fun _ => readsClosed) takesClosed

/-- A set with explicit slice groups and the twelve scaling lists of a 4:4:4 sequence is written and
read back. -/
theorem picture_read_iff_written_lists8x8 :
    let sps : SeqParameterSet := { (default : SeqParameterSet) with chroma := { format := .yuv444 } }
    let sets : ParamSets := { sps := [(3, sps)] }
    let matrix : ScalingMatrix := { lists := some .useDefault :: List.replicate 11 none }
    let pps : PicParameterSet := { (default : PicParameterSet) with
      spsId := 3
      sliceGroups := some { countMinus1 := 2, map := .explicit [0, 2, 1, 1] }
      extension := some { transform8x8Mode := true, scalingMatrix := some matrix
                          secondChromaQpIndexOffset := -2 } }
    pps.Valid sets.sps? ∧ ∃ w, Element.writeAll {} pps.elements = .ok w ∧ ∀ zeros,
      Read.value (read sets.sps?) (w.trailing.toBytes ++ List.replicate zeros 0) = .ok pps := by
  intro sps sets matrix pps
  have hgroups : ∀ groups ∈ pps.sliceGroups, groups.Valid := by
    rintro groups ⟨⟩
    exact ⟨by decide, ⟨by decide, by decide⟩⟩
  have hextension : ∀ extension ∈ pps.extension, extension.Valid sets.sps? 3 := by
    rintro extension ⟨⟩
    refine ⟨nofun, fun _ => ?_, by decide⟩
    rintro sent ⟨⟩
    exact ⟨sps, rfl, rfl, by simp [ScalingMatrix.ValidFrom, ScalingList.Valid, matrix]⟩
  have hvalid : pps.Valid sets.sps? := ⟨by decide, by decide, hgroups, by decide, by decide,
    by decide, by decide, by decide, by decide, hextension⟩
  exact ⟨hvalid, (picture_read_iff_written sets.sps?).1 pps hvalid⟩

end PicParameterSet

end H264
