import H264.Proofs.Slice.Accepted

/-!
# What accepted slice headers guarantee

The fields of a slice header depend on three units: on the header of its own, on the picture
parameter set that it names and on the sequence that this one names. `SliceHeader.Coherent` says,
in the words of the syntax, how they fit together: which fields are present, what bounds them, and
which values are the inferred ones. **Main statement** (`accepted_header_coherent`): every header
that is read names parameter sets that are there, and is coherent with them.
-/

namespace H264

/-! ## Fields that are present in some cases only -/

/-- The low bits of the order count. -/
def SlicePicOrder.lsb? : SlicePicOrder → Option Nat
  | lowBits lsb _ => some lsb
  | offsets .. | inferred => none

/-- The differences from the expected order count, zero where none are sent. -/
def SlicePicOrder.deltas : SlicePicOrder → Int × Int
  | offsets first second => (first, second)
  | lowBits .. | inferred => (0, 0)

/-- Whether differences from the expected order count may be sent. -/
def PicOrderCnt.sendsDeltas : PicOrderCnt → Bool
  | offsets deltaAlwaysZero .. => !deltaAlwaysZero
  | lowBits _ | decodingOrder => false

namespace MemoryManagementOp

def differenceOfPicNumsMinus1? : MemoryManagementOp → Option Nat
  | unmarkShortTerm difference | assignLongTerm difference _ => some difference
  | _ => none

def longTermPicNum? : MemoryManagementOp → Option Nat
  | unmarkLongTerm picNum => some picNum
  | _ => none

def longTermFrameIdx? : MemoryManagementOp → Option Nat
  | assignLongTerm _ frameIdx | markCurrentLongTerm frameIdx => some frameIdx
  | _ => none

def maxLongTermFrameIdxPlus1? : MemoryManagementOp → Option Nat
  | limitLongTerm maxFrameIdx => some maxFrameIdx
  | _ => none

/-- An operation has one of the six codes, and the operands that Table 7-9 gives this code. -/
structure HasOperands (op : MemoryManagementOp) : Prop where
  code : 1 ≤ op.code ∧ op.code ≤ 6
  difference : op.differenceOfPicNumsMinus1?.isSome = true ↔ op.code = 1 ∨ op.code = 3
  picNum : op.longTermPicNum?.isSome = true ↔ op.code = 2
  frameIdx : op.longTermFrameIdx?.isSome = true ↔ op.code = 3 ∨ op.code = 6
  maxFrameIdx : op.maxLongTermFrameIdxPlus1?.isSome = true ↔ op.code = 4

theorem hasOperands (op : MemoryManagementOp) : op.HasOperands := by
  cases op <;> constructor <;>
    simp [code, differenceOfPicNumsMinus1?, longTermPicNum?, longTermFrameIdx?,
      maxLongTermFrameIdxPlus1?]

end MemoryManagementOp

/-! ## Coherence -/

/-- The picture parameter set of an identifier and the sequence that it names, which stands among
the subset parameter sets for units of types 20 and 21. -/
structure ParamSets.Named (sets : ParamSets) (unitType : UnitType) (ppsId : Nat)
    (pps : PicParameterSet) (sps : SeqParameterSet) : Prop where
  picture : sets.pps? ppsId = some pps
  sequence : unitType.code = 1 ∨ unitType.code = 5 → sets.sps? pps.spsId = some sps
  subset : unitType.code = 20 ∨ unitType.code = 21 →
    ∃ subset, sets.subsetSps? pps.spsId = some subset ∧ subset.sps = sps

/-- An order count is sent as the sequence codes it. -/
structure SlicePicOrder.Coherent (coding : PicOrderCnt) (order : SlicePicOrder) : Prop where
  lsbSent : order.lsb?.isSome = true ↔ coding.type = 0
  lsb : ∀ log2MaxLsbMinus4, coding = .lowBits log2MaxLsbMinus4 →
    ∀ lsb ∈ order.lsb?, lsb < 2 ^ (log2MaxLsbMinus4 + 4)
  deltas : coding.sendsDeltas = false → order.deltas = (0, 0)

namespace SliceHeader

/-- The steps for a list stand only where the list is used, and name views only in multiview
slices. -/
structure CoherentSteps (unitType : UnitType) (unused : Prop) (steps : List PicNumModification) :
    Prop where
  unused : unused → steps = []
  count : steps.length ≤ 33
  codes : ∀ step ∈ steps, step.kind.idc = 4 ∨ step.kind.idc = 5 →
    unitType.code = 20 ∨ unitType.code = 21

/-- Weights stand only where the picture parameter set asks for them, one for each picture of a
list, and with chroma only where there are chroma planes. -/
structure CoherentWeights (pps : PicParameterSet) (sps : SeqParameterSet) (header : SliceHeader) :
    Prop where
  sent : header.predWeightTable.isSome = true ↔
    (pps.weightedPred = true ∧ (header.type.family = .p ∨ header.type.family = .sp)) ∨
    (pps.weightedBipredIdc = 1 ∧ header.type.family = .b)
  l0 : ∀ table ∈ header.predWeightTable, table.l0.length = header.refCounts.l0Minus1 + 1
  l1 : ∀ table ∈ header.predWeightTable,
    table.l1.length = if header.type.family = .b then header.refCounts.l1Minus1 + 1 else 0
  chroma : sps.chroma.arrayType = 0 → ∀ table ∈ header.predWeightTable,
    table.chromaLog2WeightDenom = none ∧ ∀ entry ∈ table.l0 ++ table.l1, entry.chroma = none

/-- Only reference pictures mark others, with a bounded number of operations. -/
structure CoherentMarking (nal : NalHeader) (header : SliceHeader) : Prop where
  sent : header.marking.isSome = true ↔ nal.nalRefIdc ≠ 0
  form : ∀ operations, header.marking = some (.adaptive operations) → header.idr = false
  operations : ∀ operations, header.marking = some (.adaptive operations) →
    operations.length ≤ 66 ∧ ∀ op ∈ operations, op.HasOperands

/-- The fields of a slice header fit its unit, the two parameter sets and one another. -/
structure Coherent (nal : NalHeader) (extension : Option HeaderExtension) (pps : PicParameterSet)
    (sps : SeqParameterSet) (header : SliceHeader) : Prop where
  frameNum : header.frameNum < sps.maxFrameNum
  nonIdr : nal.unitType.code = 1 → header.idr = false
  idr : nal.unitType.code = 5 → header.idr = true
  multiviewIdr : nal.unitType.code = 20 ∨ nal.unitType.code = 21 →
    ∃ fields, extension = some (.mvc fields) ∧ header.idr = !fields.nonIdrFlag
  idrPicIdSent : header.idrPicId.isSome = header.idr
  idrPicId : ∀ id ∈ header.idrPicId, id ≤ 65535
  intra : nal.unitType.code = 5 → header.type.family = .i ∨ header.type.family = .si
  order : header.picOrder.Coherent sps.picOrderCnt
  l0 : CoherentSteps nal.unitType (header.type.family = .i ∨ header.type.family = .si)
    header.refPicListModification.l0
  l1 : CoherentSteps nal.unitType (header.type.family ≠ .b) header.refPicListModification.l1
  weights : header.CoherentWeights pps sps
  marking : header.CoherentMarking nal
  qp : header.qp = 26 + pps.picInitQpMinus26 + header.qpDelta
  qpRange : -(sps.qpBdOffsetY : Int) ≤ header.qp ∧ header.qp ≤ 51
  qsSent : header.switching.qsDelta.isSome = true ↔
    header.type.family = .sp ∨ header.type.family = .si
  qs : ∀ delta ∈ header.switching.qsDelta,
    0 ≤ 26 + pps.picInitQsMinus26 + delta ∧ 26 + pps.picInitQsMinus26 + delta ≤ 51
  deblocking : header.deblocking.Legal
  cycle : LegalCycle pps sps header.groupChangeCycle

/-! ## Legal headers are coherent -/

variable {sets : ParamSets} {nal : NalHeader} {extension : Option HeaderExtension}
  {form : SliceForm} {pps : PicParameterSet} {sps : SeqParameterSet} {header : SliceHeader}

theorem unitType_of_ofHeader (h : SliceForm.ofHeader nal extension = .ok form) :
    form.unitType = nal.unitType ∧ form.isReference = (nal.nalRefIdc != 0) := by
  unfold SliceForm.ofHeader at h
  dsimp only at h
  split at h
  all_goals cases h
  all_goals exact ⟨rfl, rfl⟩

theorem idr_of_ofHeader (h : SliceForm.ofHeader nal extension = .ok form) :
    (nal.unitType.code = 1 → form.idr = false) ∧ (nal.unitType.code = 5 → form.idr = true) ∧
      (nal.unitType.code = 20 ∨ nal.unitType.code = 21 →
        ∃ fields, extension = some (.mvc fields) ∧ form.idr = !fields.nonIdrFlag) := by
  unfold SliceForm.ofHeader at h
  dsimp only at h
  split at h
  all_goals cases h
  all_goals simp [*, UnitType.code]

/-- Of the types with slice headers, those of multiview slices are 20 and 21. -/
theorem multiview_iff_code (h : SliceForm.ofHeader nal extension = .ok form) :
    form.multiview = true ↔ nal.unitType.code = 20 ∨ nal.unitType.code = 21 := by
  rw [SliceForm.multiview_of_ofHeader h]
  have hslice := SliceForm.hasSliceHeader_of_ofHeader h
  rcases UnitType.cases_of_hasSliceHeader hslice with htype | htype | htype | htype <;>
    simp [htype, UnitType.hasHeaderExtension, UnitType.code]

theorem named_of_findParamSets (hform : SliceForm.ofHeader nal extension = .ok form)
    (hfind : findParamSets sets form.multiview header.ppsId = .ok (pps, sps)) :
    sets.Named nal.unitType header.ppsId pps sps := by
  obtain ⟨hpps, hsps⟩ := exists_of_findParamSets hfind
  have hmultiview := multiview_iff_code hform
  refine ⟨hpps, fun hcode => ?_, fun hcode => ?_⟩
  · have hbase : ¬form.multiview = true := by
      rw [hmultiview]
      omega
    rwa [if_neg hbase] at hsps
  · rwa [if_pos (hmultiview.mpr hcode)] at hsps

theorem coherent_picOrder {coding : PicOrderCnt} {bottomSent : Bool} {order : SlicePicOrder}
    (h : order.Legal coding bottomSent) : order.Coherent coding := by
  unfold SlicePicOrder.Legal at h
  split at h
  next log2MaxLsbMinus4 lsb deltaBottom =>
    refine ⟨by simp [SlicePicOrder.lsb?, PicOrderCnt.type], ?_, fun _ => rfl⟩
    rintro _ ⟨⟩ _ ⟨⟩
    exact h.1
  next nonRefPic topToBottomField refFrames first second =>
    refine ⟨by simp [SlicePicOrder.lsb?, PicOrderCnt.type], by rintro _ ⟨⟩, ?_⟩
    intro hnone
    cases hnone
  next => exact ⟨by simp [SlicePicOrder.lsb?, PicOrderCnt.type], by rintro _ ⟨⟩, fun _ => rfl⟩
  next => exact ⟨by simp [SlicePicOrder.lsb?, PicOrderCnt.type], by rintro _ ⟨⟩, fun _ => rfl⟩
  next => exact h.elim

theorem coherentSteps {used : Bool} {unused : Prop} {steps : List PicNumModification}
    (hform : SliceForm.ofHeader nal extension = .ok form) (hunused : unused → used = false)
    (h : RefPicListModification.LegalList form.multiview used steps) :
    CoherentSteps nal.unitType unused steps where
  unused := fun hnone => h.used (hunused hnone)
  count := h.count
  codes := by
    intro step hstep hcode
    refine (multiview_iff_code hform).mp ((h.steps step hstep).kind ?_)
    cases hkind : step.kind <;> simp [hkind, ModificationKind.idc] at hcode ⊢

theorem sendsWeights_iff (pps : PicParameterSet) (type : SliceType) :
    sendsWeights pps type = true ↔
      (pps.weightedPred = true ∧ (type.family = .p ∨ type.family = .sp)) ∨
        (pps.weightedBipredIdc = 1 ∧ type.family = .b) := by
  unfold sendsWeights
  cases type.family <;> simp

theorem Legal.coherentWeights (h : header.Legal form pps sps) : header.CoherentWeights pps sps where
  sent := by rw [h.predWeightTableSent, sendsWeights_iff]
  l0 := fun table htable => (h.predWeightTable table htable).l0Count
  l1 := by
    intro table htable
    have hcount := (h.predWeightTable table htable).l1Count
    simp only [SliceType.usesL1_iff] at hcount
    exact hcount
  chroma := by
    intro hnone table htable
    have hlegal := h.predWeightTable table htable
    have hplanes : sps.chroma.hasPlanes = false := by simp [ChromaInfo.hasPlanes, hnone]
    rw [hplanes] at hlegal
    refine ⟨?_, fun entry hentry => ?_⟩
    · exact Option.isNone_iff_eq_none.mp (Option.isSome_eq_false_iff.mp hlegal.chromaSent)
    · rcases List.mem_append.mp hentry with hmem | hmem
      · exact (hlegal.l0 entry hmem).chromaSent rfl
      · exact (hlegal.l1 entry hmem).chromaSent rfl

theorem Legal.coherentMarking (hform : SliceForm.ofHeader nal extension = .ok form)
    (h : header.Legal form pps sps) : header.CoherentMarking nal where
  sent := by
    rw [h.markingSent, (unitType_of_ofHeader hform).2]
    simp
  form := by
    intro operations hmarking
    have hlegal := h.marking _ hmarking
    rw [h.idr]
    exact hlegal.1
  operations := by
    intro operations hmarking
    have hlegal := h.marking _ hmarking
    exact ⟨hlegal.2.1, fun op _ => op.hasOperands⟩

/-- A legal header is coherent. -/
theorem Legal.coherent (hform : SliceForm.ofHeader nal extension = .ok form)
    (h : header.Legal form pps sps) : header.Coherent nal extension pps sps := by
  obtain ⟨hnonIdr, hidr, hmultiview⟩ := idr_of_ofHeader hform
  refine {
    frameNum := ?_
    nonIdr := ?_
    idr := ?_
    multiviewIdr := ?_
    idrPicIdSent := ?_
    idrPicId := h.idrPicId
    intra := ?_
    order := coherent_picOrder h.picOrder
    l0 := coherentSteps hform ?_ h.refPicListModification.l0
    l1 := coherentSteps hform ?_ h.refPicListModification.l1
    weights := h.coherentWeights
    marking := h.coherentMarking hform
    qp := h.qp
    qpRange := h.qpRange
    qsSent := ?_
    qs := h.switching.qs
    deblocking := h.deblocking
    cycle := h.groupChangeCycle }
  · rw [SeqParameterSet.maxFrameNum, Nat.one_shiftLeft]
    exact h.frameNum
  · rwa [h.idr]
  · rwa [h.idr]
  · rwa [h.idr]
  · rw [h.idrPicIdSent, h.idr]
  · intro hcode
    have htype : nal.unitType = .idrSlice := by
      rw [← UnitType.ofCode_code nal.unitType, hcode]
      rfl
    have hform := (unitType_of_ofHeader hform).1.trans htype
    exact header.type.isIntra_iff.mp (h.type hform)
  · intro hintra
    simpa using header.type.isIntra_iff.mpr hintra
  · intro hsingle
    exact Bool.eq_false_iff.mpr fun hused => hsingle (header.type.usesL1_iff.mp hused)
  · rw [h.switching.qsSent]
    simp

/-- **Coherence of accepted headers.** A slice header that is read names a picture parameter set and
through it a sequence, and its fields fit its unit, the two sets and one another. -/
theorem accepted_header_coherent {before after : Reader}
    (h : read sets nal extension before = .ok header after) :
    ∃ pps sps, sets.Named nal.unitType header.ppsId pps sps ∧
      header.Coherent nal extension pps sps := by
  obtain ⟨_, form, pps, sps, hform, hfind, hlegal⟩ :=
    (givesOnly_read sets nal extension).of_gives ⟨before, after, h⟩
  exact ⟨pps, sps, named_of_findParamSets hform hfind, hlegal.coherent hform⟩

/-- A slice of a field that refers to both lists, with weights, a changed list and two operations on
the pictures kept for reference. -/
theorem accepted_header_coherent_weightedField :
    let sps : SeqParameterSet := { (default : SeqParameterSet) with
      profileIdc := 77, chroma := {}, picOrderCnt := .lowBits 2 }
    let pps : PicParameterSet := { (default : PicParameterSet) with
      entropyCodingMode := true, weightedBipredIdc := 1 }
    let sets : ParamSets := { sps := [(0, sps)], pps := [(0, pps)] }
    let nal : NalHeader := { forbiddenZeroBit := false, nalRefIdc := 1, unitType := .nonIdrSlice }
    let data : Bytes := [169, 195, 107, 178, 12, 73, 196, 5, 16, 194, 41, 18, 232, 64]
    ∃ header after, read sets nal none { data } = .ok header after ∧
      header.predWeightTable.isSome = true ∧
      ∃ pps sps, sets.Named nal.unitType header.ppsId pps sps ∧
        header.Coherent nal none pps sps := by
  intro sps pps sets nal data
  have hread : (match read sets nal none { data } with
      | .ok header _ => header.predWeightTable.isSome
      | .error .. => false) = true := by decide +kernel
  split at hread
  · rename_i header after hrun
    exact ⟨header, after, hrun, hread, accepted_header_coherent hrun⟩
  · cases hread

end SliceHeader

end H264
