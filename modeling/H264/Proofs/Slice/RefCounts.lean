import H264.Proofs.Slice.Accepted
import H264.Record

/-!
# How many pictures a frame refers to

A slice of a frame may use at most 16 pictures of a reference list, one of a field 32. A slice that
sends its own counts is held to that; a slice that leaves them to its picture parameter set, whose
counts may be meant for fields, is not. **Main statement** (`frame_counts_within_iff`): the counts
of an accepted slice of a frame keep the limit of frames just if the slice sent them or those of the
picture parameter set keep it as well, and the limit of fields in any case; with them go the entries
of its weights. `frame_counts_can_exceed` is a slice that breaks the limit of frames.
-/

namespace H264

namespace SliceHeader

/-- So many pictures, less one, are within a limit: those of the first list, those of the second
where it is used, and the weights that are sent for them. -/
structure CountsWithin (limit : Nat) (header : SliceHeader) : Prop where
  l0 : header.refCounts.l0Minus1 ≤ limit
  l1 : header.type.family = .b → header.refCounts.l1Minus1 ≤ limit
  weights : ∀ table ∈ header.predWeightTable,
    table.l0.length ≤ limit + 1 ∧ table.l1.length ≤ limit + 1

/-- The counts of a picture parameter set are within a limit, for a slice of some type. -/
structure DefaultsWithin (limit : Nat) (pps : PicParameterSet) (type : SliceType) : Prop where
  l0 : pps.numRefIdxL0DefaultActiveMinus1 ≤ limit
  l1 : type.family = .b → pps.numRefIdxL1DefaultActiveMinus1 ≤ limit

theorem CountsWithin.mono {limit other : Nat} {header : SliceHeader}
    (h : header.CountsWithin limit) (hle : limit ≤ other) : header.CountsWithin other where
  l0 := h.l0.trans hle
  l1 := fun hb => (h.l1 hb).trans hle
  weights := by
    intro table htable
    have := h.weights table htable
    omega

variable {form : SliceForm} {pps : PicParameterSet} {sps : SeqParameterSet} {header : SliceHeader}
  {limit : Nat}

/-- There is an entry of weights for each picture, so that the counts alone decide. -/
theorem Legal.countsWithin (h : header.Legal form pps sps)
    (hl0 : header.refCounts.l0Minus1 ≤ limit)
    (hl1 : header.type.family = .b → header.refCounts.l1Minus1 ≤ limit) :
    header.CountsWithin limit := by
  refine ⟨hl0, hl1, fun table htable => ?_⟩
  have hlegal := h.predWeightTable table htable
  rw [hlegal.l0Count, hlegal.l1Count]
  refine ⟨Nat.succ_le_succ hl0, ?_⟩
  split
  · rename_i hused
    exact Nat.succ_le_succ (hl1 (header.type.usesL1_iff.mp hused))
  · exact Nat.zero_le _

/-- Counts that a slice of a frame sends are held to the limit of frames. -/
theorem Legal.countsWithin_of_overridden (h : header.Legal form pps sps)
    (hframe : header.picStructure = .frame) (hsent : header.refCounts.overridden = true) :
    header.CountsWithin 15 := by
  have hmaximum : RefCounts.maximumMinus1 header.picStructure = 15 := if_pos hframe
  refine h.countsWithin ?_ fun hb => ?_
  · rw [← hmaximum]
    exact h.refCounts.l0Sent hsent
  · rw [← hmaximum]
    exact h.refCounts.l1Sent hsent (header.type.usesL1_iff.mpr hb)

/-- Counts that are not sent are those of the picture parameter set, whatever they are. -/
theorem Legal.countsWithin_iff_of_inherited (h : header.Legal form pps sps)
    (hinherited : header.refCounts.overridden = false) :
    header.CountsWithin limit ↔ DefaultsWithin limit pps header.type := by
  have hl0 := h.refCounts.l0Default hinherited
  have hl1 := h.refCounts.l1Default (.inl hinherited)
  constructor
  · intro hwithin
    exact ⟨hl0 ▸ hwithin.l0, fun hb => hl1 ▸ hwithin.l1 hb⟩
  · intro hdefaults
    exact h.countsWithin (hl0 ▸ hdefaults.l0) fun hb => hl1 ▸ hdefaults.l1 hb

/-- **Counts of frames.** Under parameter sets that were read from some data, the counts of an
accepted slice of a frame keep the limit of frames just if the slice sent them or those of the
picture parameter set keep it; and they keep the limit of fields. -/
theorem frame_counts_within_iff {sets : ParamSets} (hsets : sets.Decoded) {nal : NalHeader}
    {extension : Option HeaderExtension} {before after : Reader}
    (h : read sets nal extension before = .ok header after)
    (hframe : header.picStructure = .frame) :
    ∃ pps, sets.pps? header.ppsId = some pps ∧
      (header.CountsWithin 15 ↔
        header.refCounts.overridden = true ∨ DefaultsWithin 15 pps header.type) ∧
      header.CountsWithin 31 := by
  obtain ⟨_, form, pps, sps, -, hfind, hlegal⟩ :=
    (givesOnly_read sets nal extension).of_gives ⟨before, after, h⟩
  obtain ⟨hpps, -⟩ := exists_of_findParamSets hfind
  obtain ⟨findSps, hvalid⟩ := (ParamSets.valid_of_decoded hsets).pps _ _ hpps
  refine ⟨pps, hpps, ?_⟩
  cases hcounts : header.refCounts.overridden with
  | true =>
    have hwithin := hlegal.countsWithin_of_overridden hframe hcounts
    exact ⟨iff_of_true hwithin (.inl rfl), hwithin.mono (by decide)⟩
  | false =>
    have hdefaults : DefaultsWithin 31 pps header.type :=
      ⟨hvalid.numRefIdxL0DefaultActiveMinus1, fun _ => hvalid.numRefIdxL1DefaultActiveMinus1⟩
    refine ⟨?_, (hlegal.countsWithin_iff_of_inherited hcounts).mpr hdefaults⟩
    simpa using hlegal.countsWithin_iff_of_inherited hcounts

/-! ## A frame with too many pictures -/

/-- The header of a slice under the parameter sets that some units give. -/
def ofUnitUnder (units : List NalUnit) (unit : NalUnit) : Except Error SliceHeader := do
  ofUnit (← ParamSets.ofUnits units) unit

theorem exists_of_ofUnitUnder {units : List NalUnit} {unit : NalUnit} {good : SliceHeader → Bool}
    (h : (ofUnitUnder units unit).toOption.any good = true) :
    ∃ sets header, ParamSets.ofUnits units = .ok sets ∧ ofUnit sets unit = .ok header ∧
      good header = true := by
  cases hunit : ofUnitUnder units unit with
  | error error =>
    rw [hunit] at h
    cases h
  | ok header =>
    rw [hunit] at h
    obtain ⟨sets, hsets, hheader⟩ := exists_of_bind_eq_ok hunit
    exact ⟨sets, header, hsets, hheader, h⟩

/-- What a unit holds was read as its header and its extension say. -/
theorem exists_read_of_ofUnit {sets : ParamSets} {unit : NalUnit} {header : SliceHeader}
    (h : ofUnit sets unit = .ok header) :
    ∃ nal extension before after, read sets nal extension before = .ok header after := by
  obtain ⟨data, nal, extension, -, -, -, hvalue⟩ := ofUnit_eq_ok_iff.mp h
  obtain ⟨after, hread⟩ := Read.exists_run_of_value hvalue
  exact ⟨nal, extension, { data }, after, hread⟩

/-- A sequence of frames, and a picture parameter set for 32 pictures of the first list, with
weights. -/
def manyPictures : List NalUnit := [
  { bytes := [0x67, 77, 0, 30, 217, 66, 196, 228] },
  { bytes := [0x68, 200, 32, 206, 32] }]

/-- A slice of a frame that sends a count of 16 pictures. -/
def sentCount : NalUnit := { bytes := [0x01, 231, 8, 48, 0, 0, 3, 0, 12] }

/-- A slice of a frame that leaves the count to its picture parameter set. -/
def inheritedCount : NalUnit := { bytes := [0x01, 230, 96, 0, 0, 3, 0, 0, 3, 0, 0, 3, 0, 24] }

/-- A slice that sends its count keeps the limit, though its picture parameter set does not. -/
theorem frame_counts_within_iff_sentCount :
    ∃ sets header, sets.Decoded ∧ ofUnit sets sentCount = .ok header ∧
      header.predWeightTable.isSome = true ∧ header.CountsWithin 15 := by
  obtain ⟨sets, header, hsets, hunit, hgood⟩ := @exists_of_ofUnitUnder manyPictures sentCount
    (fun header => decide (header.picStructure = .frame ∧ header.refCounts.overridden = true ∧
      header.predWeightTable.isSome = true)) (by decide +kernel)
  obtain ⟨hframe, hsent, hweights⟩ := of_decide_eq_true hgood
  have hdecoded := ParamSets.decoded_ofUnits hsets
  obtain ⟨nal, extension, before, after, hread⟩ := exists_read_of_ofUnit hunit
  obtain ⟨pps, -, hlimit, -⟩ := frame_counts_within_iff hdecoded hread hframe
  exact ⟨sets, header, hdecoded, hunit, hweights, hlimit.mpr (.inl hsent)⟩

/-- Not every accepted slice of a frame keeps the limit of frames. -/
theorem frame_counts_can_exceed :
    ¬∀ units sets unit header, ParamSets.ofUnits units = .ok sets →
      ofUnit sets unit = .ok header → header.type.usesL0 = true →
      header.picStructure = .frame → header.CountsWithin 15 := by
  intro h
  obtain ⟨sets, header, hsets, hunit, hgood⟩ := @exists_of_ofUnitUnder manyPictures inheritedCount
    (fun header => decide (header.type.usesL0 = true ∧ header.picStructure = .frame ∧
      header.refCounts.l0Minus1 = 31)) (by decide +kernel)
  obtain ⟨hused, hframe, hcount⟩ := of_decide_eq_true hgood
  have hwithin := h manyPictures sets inheritedCount header hsets hunit hused hframe
  have hlimit := hwithin.l0
  omega

end SliceHeader

end H264
