import H264.Proofs.Pps.Reference
import H264.Proofs.Slice.Coherent

/-!
# The parameter sets that a slice header depends on

The third field of a slice names a picture parameter set, and this set names a sequence.
`SliceHeader.NamesPps` says of what comes next that it is a slice which gets to this field, so that
the set is looked up; `ParamSets.AgreeOn` says of two collections of sets that they give the same
answers for this set and for its sequence, among those of the slice's own kind.

* `read_unresolved` — the set that is named is looked up;
* `eq_of_namesPps` — one set is named at most;
* **`header_depends_on_named_sets`** — all that is read, or the error, and the place where the
  reader stops come from these two answers.
-/

namespace H264

theorem SliceType.id_of_ofId {number : Nat} {type : SliceType} (h : ofId number = .ok type) :
    type.id = number := by
  have hnumber : ∀ number < 10,
      SliceType.id { family := .ofCode number, allSlicesSame := decide (5 ≤ (number : Int)) } =
        number := by decide
  unfold ofId at h
  split at h
  · cases h
    exact hnumber number (by omega)
  · cases h

theorem Table.find?_store_of_ne {α : Type} (table : Table α) {id key : Nat} (entry : α)
    (h : key ≠ id) : (table.store id entry).find? key = table.find? key := by
  rw [find_store, if_neg h]

/-- Sets that give the same answer for a picture parameter set, and the same for the sequence that
it names, which stands among the subset parameter sets for units of types 20 and 21. -/
structure ParamSets.AgreeOn (unitType : UnitType) (ppsId : Nat) (sets other : ParamSets) : Prop where
  picture : sets.pps? ppsId = other.pps? ppsId
  sequence : unitType.code = 1 ∨ unitType.code = 5 →
    ∀ pps ∈ sets.pps? ppsId, sets.sps? pps.spsId = other.sps? pps.spsId
  subset : unitType.code = 20 ∨ unitType.code = 21 →
    ∀ pps ∈ sets.pps? ppsId, sets.subsetSps? pps.spsId = other.subsetSps? pps.spsId

namespace SliceHeader

/-! ## The fields up to the name -/

/-- The elements of a slice up to the identifier of its picture parameter set. -/
def Naming (form : SliceForm) (ppsId : Nat) (elements : List Element) : Prop :=
  ∃ firstMb type, firstMb ≤ Codeword.maxCodeNumber ∧
    (form.unitType = .idrSlice → SliceType.isIntra type = true) ∧ ppsId ≤ maxPpsId ∧
    elements = [.ue firstMb, .ue type.id, .ue ppsId]

/-- What comes next is a slice, in a unit with this header, that names a picture parameter set. -/
def NamesPps (nal : NalHeader) (extension : Option HeaderExtension) (r : Reader) (ppsId : Nat) :
    Prop :=
  ∃ form elements tail, SliceForm.ofHeader nal extension = .ok form ∧ Naming form ppsId elements ∧
    r.rest = Element.bits elements ++ tail

/-- The picture parameter set that is named is there and names a sequence. -/
def NamesSps (sets : ParamSets) (nal : NalHeader) (extension : Option HeaderExtension) (r : Reader)
    (spsId : Nat) : Prop :=
  ∃ ppsId pps, NamesPps nal extension r ppsId ∧ sets.pps? ppsId = some pps ∧ pps.spsId = spsId

variable {sets other : ParamSets} {nal : NalHeader} {extension : Option HeaderExtension}
  {r : Reader} {form : SliceForm} {ppsId : Nat}

theorem accepts_readType (form : SliceForm) :
    Accepts (readType form) (fun type => form.unitType = .idrSlice → type.isIntra = true)
      fun type => [.ue type.id] := by
  unfold readType
  refine .part (.ue _) fun number _ => .step (.ofExcept _) fun type htype => ?_
  refine .guard fun hgood => .pure ⟨fun hidr => ?_, ?_⟩
  · by_contra hinter
    exact hgood ⟨hidr, by simpa using hinter⟩
  · show [Element.ue number] = [Element.ue type.id]
    rw [SliceType.id_of_ofId htype]

/-! ## The set that is named is looked up -/

theorem stopsAfter_readAs {elements : List Element} (h : Naming form ppsId elements)
    (hunknown : sets.pps? ppsId = none) :
    StopsAfter (readAs form sets) elements (.unresolved "pic_parameter_set_id" ppsId) := by
  obtain ⟨firstMb, type, hfirst, htype, hppsId, rfl⟩ := h
  have hfind : findParamSets sets form.multiview ppsId =
      .error (.unresolved "pic_parameter_set_id" ppsId) := by
    unfold findParamSets
    rw [hunknown]
  unfold readAs
  refine .cons (.ue _ hfirst) <| .cons (readsBack_type htype) ?_
  refine .cons (.ueMax _ hppsId (by decide)) <| .bind ?_ _
  rw [hfind]
  exact .fail

/-- A slice cannot be read where the picture parameter set that it names is not known. -/
theorem read_unresolved (h : NamesPps nal extension r ppsId) (hunknown : sets.pps? ppsId = none) :
    ∃ after, read sets nal extension r =
      .error (.unresolved "pic_parameter_set_id" ppsId) after := by
  obtain ⟨form, elements, tail, hform, hnaming, hrest⟩ := h
  unfold read
  rw [hform]
  exact stopsAfter_readAs hnaming hunknown r tail hrest

/-- A slice names one picture parameter set at most. -/
theorem eq_of_namesPps {other : Nat} (h : NamesPps nal extension r ppsId)
    (hother : NamesPps nal extension r other) : ppsId = other := by
  have hnone : ∀ id, ({} : ParamSets).pps? id = none := fun _ => rfl
  obtain ⟨after, hfirst⟩ := read_unresolved h (hnone ppsId)
  obtain ⟨after', hsecond⟩ := read_unresolved hother (hnone other)
  rw [hfirst] at hsecond
  injection hsecond with herror
  exact Error.eq_of_unresolved_eq herror

/-! ## Nothing else is looked up -/

/-- Up to the name no set has a part in it, and from there on the two sets that were found. -/
theorem agreeUnless_readAs (form : SliceForm) :
    AgreeUnless (fun elements => ∃ ppsId, Naming form ppsId elements ∧
      findParamSets sets form.multiview ppsId ≠ findParamSets other form.multiview ppsId)
      (readAs form sets) (readAs form other) := by
  unfold readAs
  refine .part (.ue _) fun firstMb hfirst => .part (accepts_readType form) fun type htype => ?_
  refine .part (.ueMax _ maxPpsId) fun ppsId hppsId => ?_
  by_cases hsame : findParamSets sets form.multiview ppsId = findParamSets other form.multiview ppsId
  · rw [hsame]
    exact .refl _
  · exact .of_asked ⟨ppsId, ⟨firstMb, type, hfirst, htype, hppsId, rfl⟩, hsame⟩

theorem base_of_ofHeader (hform : SliceForm.ofHeader nal extension = .ok form)
    (hbase : ¬form.multiview = true) : nal.unitType.code = 1 ∨ nal.unitType.code = 5 := by
  rw [multiview_iff_code hform] at hbase
  have hslice := SliceForm.hasSliceHeader_of_ofHeader hform
  rcases UnitType.cases_of_hasSliceHeader hslice with htype | htype | htype | htype
  · exact .inl (congrArg UnitType.code htype)
  · exact .inr (congrArg UnitType.code htype)
  · exact absurd (.inl (congrArg UnitType.code htype)) hbase
  · exact absurd (.inr (congrArg UnitType.code htype)) hbase

theorem findParamSets_congr (hform : SliceForm.ofHeader nal extension = .ok form)
    (h : sets.AgreeOn nal.unitType ppsId other) :
    findParamSets sets form.multiview ppsId = findParamSets other form.multiview ppsId := by
  unfold findParamSets
  rw [← h.picture]
  cases hpps : sets.pps? ppsId with
  | none => rfl
  | some pps =>
    dsimp only
    by_cases hkind : form.multiview = true
    · have hsubset := h.subset ((multiview_iff_code hform).mp hkind) pps hpps
      rw [if_pos hkind, if_pos hkind, hsubset]
    · have hsequence := h.sequence (base_of_ofHeader hform hkind) pps hpps
      rw [if_neg hkind, if_neg hkind, hsequence]

theorem read_congr
    (h : ∀ ppsId, NamesPps nal extension r ppsId → sets.AgreeOn nal.unitType ppsId other) :
    read sets nal extension r = read other nal extension r := by
  unfold read
  cases hform : SliceForm.ofHeader nal extension with
  | error error => rfl
  | ok form =>
    show readAs form sets r = readAs form other r
    rcases agreeUnless_readAs form r with hsame | ⟨elements, tail, ⟨ppsId, hnaming, hdiffer⟩, hrest⟩
    · exact hsame
    · have hagree := h ppsId ⟨form, elements, tail, hform, hnaming, hrest⟩
      exact absurd (findParamSets_congr hform hagree) hdiffer

/-! ## Sets that are stored -/

theorem read_storePps {pps : PicParameterSet} (h : ¬NamesPps nal extension r pps.id) :
    read sets nal extension r = read (sets.storePps pps) nal extension r := by
  refine read_congr fun ppsId hnames => ⟨?_, fun _ _ _ => rfl, fun _ _ _ => rfl⟩
  have hne : ppsId ≠ pps.id := fun heq => h (heq ▸ hnames)
  exact (Table.find?_store_of_ne sets.pps pps hne).symm

theorem read_storeSps {sps : SeqParameterSet} (h : ¬NamesSps sets nal extension r sps.id) :
    read sets nal extension r = read (sets.storeSps sps) nal extension r := by
  refine read_congr fun ppsId hnames => ⟨rfl, fun _ pps hpps => ?_, fun _ _ _ => rfl⟩
  have hne : pps.spsId ≠ sps.id := fun heq => h ⟨ppsId, pps, hnames, hpps, heq⟩
  exact (Table.find?_store_of_ne sets.sps sps hne).symm

theorem read_storeSubsetSps {subset : SubsetSps} (h : ¬NamesSps sets nal extension r subset.id) :
    read sets nal extension r = read (sets.storeSubsetSps subset) nal extension r := by
  refine read_congr fun ppsId hnames => ⟨rfl, fun _ _ _ => rfl, fun _ pps hpps => ?_⟩
  have hne : pps.spsId ≠ subset.id := fun heq => h ⟨ppsId, pps, hnames, hpps, heq⟩
  exact (Table.find?_store_of_ne sets.subsetSps subset hne).symm

/-! ## Main statement -/

/-- **What a slice header depends on.** Two collections of parameter sets that agree on the sets
which the slice names give the same header or the same error and leave the reader in the same
place. So no subset parameter set has a part in slices of types 1 and 5 and no other sequence one in
slices of types 20 and 21, and sets that are not named may be defined anew. -/
theorem header_depends_on_named_sets (sets : ParamSets) (nal : NalHeader)
    (extension : Option HeaderExtension) (r : Reader) :
    (∀ other : ParamSets,
      (∀ ppsId, NamesPps nal extension r ppsId → sets.AgreeOn nal.unitType ppsId other) →
        read sets nal extension r = read other nal extension r) ∧
    (nal.unitType.code = 1 ∨ nal.unitType.code = 5 → ∀ subsetSps : Table SubsetSps,
      read sets nal extension r = read { sets with subsetSps } nal extension r) ∧
    (nal.unitType.code = 20 ∨ nal.unitType.code = 21 → ∀ sps : Table SeqParameterSet,
      read sets nal extension r = read { sets with sps } nal extension r) ∧
    (∀ pps : PicParameterSet, ¬NamesPps nal extension r pps.id →
      read sets nal extension r = read (sets.storePps pps) nal extension r) ∧
    (∀ sps : SeqParameterSet, ¬NamesSps sets nal extension r sps.id →
      read sets nal extension r = read (sets.storeSps sps) nal extension r) ∧
    ∀ subset : SubsetSps, ¬NamesSps sets nal extension r subset.id →
      read sets nal extension r = read (sets.storeSubsetSps subset) nal extension r := by
  refine ⟨fun other => read_congr, fun hbase subsetSps => ?_, fun hmultiview sps => ?_,
    fun pps => read_storePps, fun sps => read_storeSps, fun subset => read_storeSubsetSps⟩
  · refine read_congr fun ppsId _ => ⟨rfl, fun _ _ _ => rfl, fun hother => ?_⟩
    omega
  · refine read_congr fun ppsId _ => ⟨rfl, fun hother => ?_, fun _ _ _ => rfl⟩
    omega

/-- An intra slice under sets that are the same but for the picture and the subset parameter sets
that it does not name, and for a sequence of another identifier. -/
theorem header_depends_on_named_sets_redefined :
    let sps : SeqParameterSet := { (default : SeqParameterSet) with
      profileIdc := 77, chroma := {}, picOrderCnt := .lowBits 2 }
    let sets : ParamSets := { sps := [(0, sps)], pps := [(0, default)] }
    let other : ParamSets :=
      { sps := [(1, default), (0, sps)], pps := [(0, default), (5, default)]
        subsetSps := [(0, default)] }
    let nal : NalHeader := { forbiddenZeroBit := false, nalRefIdc := 0, unitType := .nonIdrSlice }
    let r : Reader := { data := [0x88, 0x98, 0x68, 0x80] }
    NamesPps nal none r 0 ∧ ∃ header after, read sets nal none r = .ok header after ∧
      read other nal none r = .ok header after := by
  intro sps sets other nal r
  have hnames : NamesPps nal none r 0 := by
    refine ⟨_, _, [false, false, true, true, false, false, false, false, true, true, false, true,
      false, false, false, true, false, false, false, false, false, false, false], rfl,
      ⟨0, { family := .i, allSlicesSame := true }, by decide, fun _ => rfl, by decide, rfl⟩, ?_⟩
    decide
  have hread : ∃ header after, read sets nal none r = .ok header after := by
    have hok : (Read.value (read sets nal none) r.data).isOk = true := by decide +kernel
    cases hvalue : Read.value (read sets nal none) r.data with
    | error error =>
      rw [hvalue] at hok
      cases hok
    | ok header => exact ⟨header, Read.exists_run_of_value hvalue⟩
  have hsame : read sets nal none r = read other nal none r := by
    refine (header_depends_on_named_sets sets nal none r).1 other fun ppsId hother => ?_
    obtain rfl := eq_of_namesPps hnames hother
    refine ⟨rfl, fun _ pps hpps => ?_, fun hmultiview => ?_⟩
    · obtain rfl := Option.some.inj hpps
      rfl
    · exact absurd hmultiview (by decide)
  obtain ⟨header, after, hread⟩ := hread
  exact ⟨hnames, header, after, hread, hsame ▸ hread⟩

end SliceHeader

end H264
