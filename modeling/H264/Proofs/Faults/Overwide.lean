import H264.Proofs.Faults.Slice
import H264.Record

/-!
# Slices with a change cycle that no field holds

Where slice groups evolve, a slice says how far they have come, in as many bits as the size of the
picture and the rate of change ask for. Nothing bounds that number of bits, and a field has 32 at
most. `Overwide` is a slice that asks for more; decoding it fails as a misuse of the reader
(`Record.ofUnit_of_overwide`). Every other unit is decoded or fails with an error that a stream can
cause (`Record.checked_ofUnit`).

* `readAs_eq` — a slice header is one without slice groups, followed by the change cycle.
-/

namespace H264

open Read

namespace SliceHeader

/-! ## The width of a change cycle -/

theorem leastWidth_le {size rate width fuel bits : Nat} (hbits : bits ≤ width)
    (h : size + rate ≤ rate * 2 ^ width) : leastWidth size rate fuel bits ≤ width := by
  induction fuel generalizing bits with
  | zero => exact hbits
  | succ fuel ih =>
    unfold leastWidth
    rw [Nat.shiftLeft_eq]
    by_cases hfits : size + rate ≤ rate * 2 ^ bits
    · rw [if_pos hfits]
      exact hbits
    · rw [if_neg hfits]
      have hne : bits ≠ width := by
        rintro rfl
        exact hfits h
      exact ih (by omega)

theorem leastWidth_fits {size rate fuel bits : Nat}
    (h : size + rate ≤ rate * 2 ^ (bits + fuel)) :
    size + rate ≤ rate * 2 ^ leastWidth size rate fuel bits := by
  induction fuel generalizing bits with
  | zero => exact h
  | succ fuel ih =>
    unfold leastWidth
    rw [Nat.shiftLeft_eq]
    by_cases hfits : size + rate ≤ rate * 2 ^ bits
    · rw [if_pos hfits]
      exact hfits
    · rw [if_neg hfits]
      refine ih ?_
      rwa [Nat.succ_add_eq_add_succ]

/-- The last width that is tried holds every cycle. -/
theorem fits_lastWidth (size : Nat) {rate : Nat} (hrate : 0 < rate) :
    size + rate ≤ rate * 2 ^ (0 + (Nat.log2 size + 1)) := by
  have hsize : size < 2 ^ (Nat.log2 size + 1) := Nat.lt_log2_self
  obtain ⟨less, rfl⟩ : ∃ less, rate = less + 1 := ⟨rate - 1, by omega⟩
  have hless : less ≤ less * 2 ^ (Nat.log2 size + 1) :=
    Nat.le_mul_of_pos_right less (Nat.two_pow_pos _)
  rw [Nat.zero_add, Nat.succ_mul]
  omega

/-- The width of a change cycle is the least number of bits in which every cycle has a number. -/
theorem groupChangeCycleBits_le_iff {size rate : Nat} (hrate : 0 < rate) (width : Nat) :
    groupChangeCycleBits size rate ≤ width ↔ size + rate ≤ rate * 2 ^ width := by
  constructor
  · intro h
    refine Nat.le_trans (leastWidth_fits (fits_lastWidth size hrate)) (Nat.mul_le_mul_left rate ?_)
    exact Nat.pow_le_pow_right (by decide) h
  · intro h
    exact leastWidth_le (Nat.zero_le width) h

theorem readGroupChangeCycle_of_wide {sps : SeqParameterSet} {rate : Nat}
    (h : maxWidth < groupChangeCycleBits sps.picSizeInMapUnits rate) :
    readGroupChangeCycle sps rate =
      throw (.misuse (.readWidth (groupChangeCycleBits sps.picSizeInMapUnits rate))) := by
  unfold readGroupChangeCycle
  dsimp only
  rw [bits_of_wide h]
  rfl

theorem checked_readGroupChangeCycle {sps : SeqParameterSet} {rate : Nat}
    (h : groupChangeCycleBits sps.picSizeInMapUnits rate ≤ maxWidth) :
    Checked (readGroupChangeCycle sps rate) := by
  unfold readGroupChangeCycle
  exact .bind (checked_bits h _) fun cycle => .guard rfl (.pure cycle)

/-- The width of the change cycle under some parameter sets, where one is sent. -/
def cycleWidth? (pps : PicParameterSet) (sps : SeqParameterSet) : Option Nat :=
  (pps.sliceGroups.bind SliceGroups.changeRate?).map
    (groupChangeCycleBits sps.picSizeInMapUnits)

theorem readCycle_of_wide {pps : PicParameterSet} {sps : SeqParameterSet} {width : Nat}
    (hwidth : cycleWidth? pps sps = some width) (h : maxWidth < width) (header : SliceHeader) :
    readCycle pps sps header = throw (.misuse (.readWidth width)) := by
  unfold cycleWidth? at hwidth
  unfold readCycle
  cases hrate : pps.sliceGroups.bind SliceGroups.changeRate? with
  | none =>
    rw [hrate] at hwidth
    cases hwidth
  | some rate =>
    rw [hrate] at hwidth
    cases hwidth
    dsimp only
    rw [readGroupChangeCycle_of_wide h]
    rfl

theorem checked_readCycle {pps : PicParameterSet} {sps : SeqParameterSet}
    (h : ∀ width, cycleWidth? pps sps = some width → width ≤ maxWidth) (header : SliceHeader) :
    Checked (readCycle pps sps header) := by
  unfold cycleWidth? at h
  unfold readCycle
  cases hrate : pps.sliceGroups.bind SliceGroups.changeRate? with
  | none => exact .pure header
  | some rate =>
    rw [hrate] at h
    exact .bind (checked_readGroupChangeCycle (h _ rfl)) fun cycle => .pure _

theorem changeRate_pos {groups : SliceGroups} {rate : Nat} (h : groups.changeRate? = some rate) :
    0 < rate := by
  unfold SliceGroups.changeRate? at h
  split at h
  · cases h
    exact Nat.succ_pos _
  · cases h

end SliceHeader

/-! ## The parameter sets of a slice -/

namespace ParamSets

/-- The sets without the slice groups of their pictures. -/
def withoutGroups (sets : ParamSets) : ParamSets :=
  { sets with pps := sets.pps.map fun entry => (entry.1, entry.2.withoutGroups) }

/-- The widths of the fields that some parameter sets govern in slices. -/
structure FieldWidths (sets : ParamSets) : Prop where
  sps : ∀ id sps, sets.sps? id = some sps → sps.FieldWidths
  subset : ∀ id subset, sets.subsetSps? id = some subset → subset.sps.FieldWidths

theorem pps?_withoutGroups (sets : ParamSets) (id : Nat) :
    sets.withoutGroups.pps? id = (sets.pps? id).map PicParameterSet.withoutGroups := by
  unfold pps? withoutGroups Table.find?
  dsimp only
  induction sets.pps with
  | nil => rfl
  | cons entry rest ih =>
    obtain ⟨other, pps⟩ := entry
    rw [List.map_cons, List.lookup_cons, List.lookup_cons, ih]
    cases id == other with
    | true => rfl
    | false => rfl

end ParamSets

namespace SliceHeader

theorem findParamSets_withoutGroups (sets : ParamSets) (multiview : Bool) (ppsId : Nat) :
    findParamSets sets.withoutGroups multiview ppsId =
      (findParamSets sets multiview ppsId).map fun found => (found.1.withoutGroups, found.2) := by
  have hsps (id : Nat) : sets.withoutGroups.sps? id = sets.sps? id := rfl
  have hsubset (id : Nat) : sets.withoutGroups.subsetSps? id = sets.subsetSps? id := rfl
  have hid (pps : PicParameterSet) : pps.withoutGroups.spsId = pps.spsId := rfl
  unfold findParamSets
  rw [ParamSets.pps?_withoutGroups]
  cases sets.pps? ppsId with
  | none => rfl
  | some pps =>
    simp only [Option.map_some, hsps, hsubset, hid]
    cases (if multiview then (sets.subsetSps? pps.spsId).map SubsetSps.sps
        else sets.sps? pps.spsId) with
    | none => rfl
    | some sps => rfl

/-- What a look-up finds is known, and the picture's parameter set names the sequence's. -/
theorem exists_of_findParamSets {sets : ParamSets} {multiview : Bool} {ppsId : Nat}
    {pps : PicParameterSet} {sps : SeqParameterSet}
    (h : findParamSets sets multiview ppsId = .ok (pps, sps)) :
    sets.pps? ppsId = some pps ∧
      if multiview then ∃ subset, sets.subsetSps? pps.spsId = some subset ∧ subset.sps = sps
      else sets.sps? pps.spsId = some sps := by
  unfold findParamSets at h
  cases hpps : sets.pps? ppsId with
  | none =>
    rw [hpps] at h
    cases h
  | some found =>
    rw [hpps] at h
    cases multiview with
    | true =>
      cases hsubset : sets.subsetSps? found.spsId with
      | none =>
        simp only [hsubset, if_true, Option.map_none, reduceCtorEq] at h
      | some subset =>
        simp only [hsubset, if_true, Option.map_some, Except.ok.injEq, Prod.mk.injEq] at h
        obtain ⟨rfl, rfl⟩ := h
        exact ⟨rfl, subset, hsubset, rfl⟩
    | false =>
      cases hsps : sets.sps? found.spsId with
      | none => simp only [hsps, Bool.false_eq_true, if_false, reduceCtorEq] at h
      | some known =>
        simp only [hsps, Bool.false_eq_true, if_false, Except.ok.injEq, Prod.mk.injEq] at h
        obtain ⟨rfl, rfl⟩ := h
        exact ⟨rfl, hsps⟩

theorem fieldWidths_of_findParamSets {sets : ParamSets} (hsets : sets.FieldWidths)
    {multiview : Bool} {ppsId : Nat} {pps : PicParameterSet} {sps : SeqParameterSet}
    (h : findParamSets sets multiview ppsId = .ok (pps, sps)) : sps.FieldWidths := by
  obtain ⟨-, hsps⟩ := exists_of_findParamSets h
  cases multiview with
  | true =>
    obtain ⟨subset, hsubset, rfl⟩ := hsps
    exact hsets.subset _ _ hsubset
  | false => exact hsets.sps _ _ hsps

theorem checked_findParamSets (sets : ParamSets) (multiview : Bool) (ppsId : Nat) :
    CheckedOutcome (findParamSets sets multiview ppsId) := by
  unfold findParamSets
  cases sets.pps? ppsId with
  | none => exact .fail rfl
  | some pps =>
    dsimp only
    split
    · exact .fail rfl
    · exact .ok _

/-- After a header without groups comes the change cycle that its parameter sets ask for. -/
def readCycleOf (sets : ParamSets) (multiview : Bool) (header : SliceHeader) :
    Read SliceHeader := do
  let (pps, sps) ← Read.ofExcept (findParamSets sets multiview header.ppsId)
  readCycle pps sps header

theorem readCycleOf_eq {sets : ParamSets} {multiview : Bool} {header : SliceHeader}
    {pps : PicParameterSet} {sps : SeqParameterSet}
    (h : findParamSets sets multiview header.ppsId = .ok (pps, sps)) :
    readCycleOf sets multiview header = readCycle pps sps header := by
  unfold readCycleOf
  rw [h]
  rfl

theorem readAs_eq {sets : ParamSets} (hsets : sets.FieldWidths) (form : SliceForm) :
    readAs form sets =
      readAs form sets.withoutGroups >>= readCycleOf sets form.multiview := by
  unfold readAs
  simp only [bind_assoc]
  refine bind_congr fun firstMb => bind_congr fun type => bind_congr fun ppsId => ?_
  rw [findParamSets_withoutGroups]
  cases hfind : findParamSets sets form.multiview ppsId with
  | error error => rfl
  | ok found =>
    obtain ⟨pps, sps⟩ := found
    -- the groups are looked at after all other fields have been read
    show readBody form firstMb type pps sps ppsId =
      readBody form firstMb type pps.withoutGroups sps ppsId >>= readCycleOf sets form.multiview
    rw [readBody_eq]
    refine bind_congr_of_gives fun header hgives => ?_
    have hid : header.ppsId = ppsId := (yields_readBody form firstMb type pps sps ppsId
      (fieldWidths_of_findParamSets hsets hfind)).of_gives hgives
    have hfind' : findParamSets sets form.multiview header.ppsId = .ok (pps, sps) := by
      rw [hid, hfind]
    exact (readCycleOf_eq hfind').symm

theorem checked_readAs_withoutGroups {sets : ParamSets} (hsets : sets.FieldWidths)
    (form : SliceForm) : Checked (readAs form sets.withoutGroups) := by
  unfold readAs
  refine .bind (checked_ue _) fun firstMb => .bind (checked_readType form) fun type => ?_
  refine .bind (checked_ueMax _ _) fun ppsId => ?_
  rw [findParamSets_withoutGroups]
  cases hfind : findParamSets sets form.multiview ppsId with
  | error error => exact .fail (checked_findParamSets _ _ _ error hfind)
  | ok found =>
    obtain ⟨pps, sps⟩ := found
    have hsps := fieldWidths_of_findParamSets hsets hfind
    exact (yields_readBody form firstMb type pps sps ppsId hsps).checked

end SliceHeader

/-! ## The form of a slice -/

/-- Whether units of a type carry slice headers. -/
def UnitType.hasSliceHeader : UnitType → Bool
  | nonIdrSlice | idrSlice | sliceExtension | sliceExtensionDepthView => true
  | _ => false

theorem UnitType.cases_of_hasSliceHeader {type : UnitType} (h : type.hasSliceHeader = true) :
    type = nonIdrSlice ∨ type = idrSlice ∨ type = sliceExtension ∨
      type = sliceExtensionDepthView := by
  cases type with
  | nonIdrSlice => exact .inl rfl
  | idrSlice => exact .inr (.inl rfl)
  | sliceExtension => exact .inr (.inr (.inl rfl))
  | sliceExtensionDepthView => exact .inr (.inr (.inr rfl))
  | _ => cases h

namespace SliceForm

variable {header : NalHeader} {extension : Option HeaderExtension} {form : SliceForm}

theorem multiview_of_ofHeader (h : ofHeader header extension = .ok form) :
    form.multiview = header.unitType.hasHeaderExtension := by
  unfold ofHeader at h
  dsimp only at h
  split at h
  all_goals cases h
  all_goals simp only [*, UnitType.hasHeaderExtension]

theorem hasSliceHeader_of_ofHeader (h : ofHeader header extension = .ok form) :
    header.unitType.hasSliceHeader = true := by
  unfold ofHeader at h
  dsimp only at h
  split at h
  all_goals cases h
  all_goals simp only [*, UnitType.hasSliceHeader]

theorem checked_ofHeader (hslice : header.unitType.hasSliceHeader = true)
    (hext : header.unitType.hasHeaderExtension = true → extension.isSome = true) :
    CheckedOutcome (ofHeader header extension) := by
  unfold ofHeader
  rcases UnitType.cases_of_hasSliceHeader hslice with htype | htype | htype | htype
  · rw [htype]
    exact .ok _
  · rw [htype]
    exact .ok _
  · rw [htype] at hext ⊢
    obtain ⟨found, rfl⟩ := Option.isSome_iff_exists.mp (hext rfl)
    cases found with
    | svc fields => exact .fail rfl
    | mvc fields => exact .ok _
  · rw [htype] at hext ⊢
    obtain ⟨found, rfl⟩ := Option.isSome_iff_exists.mp (hext rfl)
    cases found with
    | svc fields => exact .fail rfl
    | mvc fields => exact .ok _

end SliceForm

namespace NalUnit

variable {unit : NalUnit}

theorem type?_of_checkedHeader {header : NalHeader} (h : unit.checkedHeader = .ok header) :
    unit.type? = some header.unitType := by
  unfold checkedHeader NalUnit.header at h
  unfold type?
  cases hbytes : unit.bytes with
  | nil =>
    rw [hbytes] at h
    cases h
  | cons byte rest =>
    rw [hbytes] at h
    by_cases hbit : (NalHeader.ofByte byte).forbiddenZeroBit
    · simp only [bind, Except.bind, if_pos hbit] at h
      cases h
    · simp only [bind, Except.bind, if_neg hbit] at h
      cases h
      rfl

theorem isSome_of_headerExtension {type : UnitType} {extension : Option HeaderExtension}
    (htype : unit.type? = some type) (hext : type.hasHeaderExtension = true)
    (h : unit.headerExtension = .ok extension) : extension.isSome = true := by
  unfold headerExtension NalUnit.type NalUnit.header at h
  unfold type? at htype
  cases hbytes : unit.bytes with
  | nil =>
    rw [hbytes] at htype
    cases htype
  | cons byte rest =>
    rw [hbytes] at h htype
    cases htype
    simp only [bind, Except.bind, pure, Except.pure, NalHeader.ofByte, hext] at h
    rw [if_pos trivial] at h
    split at h
    · cases h
      rfl
    · cases h

/-- Whether the header of a unit goes on after its first byte. -/
def hasHeaderExtension (unit : NalUnit) : Bool :=
  unit.type?.any UnitType.hasHeaderExtension

theorem hasHeaderExtension_of_checkedHeader {header : NalHeader}
    (h : unit.checkedHeader = .ok header) :
    unit.hasHeaderExtension = header.unitType.hasHeaderExtension := by
  unfold hasHeaderExtension
  rw [type?_of_checkedHeader h]
  rfl

end NalUnit

/-! ## Slices without a legal header -/

/-- A slice whose header is legal up to a change cycle that is wider than any field. -/
def Overwide (sets : ParamSets) (unit : NalUnit) (width : Nat) : Prop :=
  ∃ header pps sps, SliceHeader.ofUnit sets.withoutGroups unit = .ok header ∧
    SliceHeader.findParamSets sets unit.hasHeaderExtension header.ppsId = .ok (pps, sps) ∧
    SliceHeader.cycleWidth? pps sps = some width ∧ maxWidth < width

namespace SliceHeader

variable {sets : ParamSets} {unit : NalUnit}

theorem read_eq (hsets : sets.FieldWidths) (header : NalHeader)
    (extension : Option HeaderExtension) :
    read sets header extension = read sets.withoutGroups header extension >>=
      readCycleOf sets header.unitType.hasHeaderExtension := by
  unfold read
  rw [bind_assoc]
  cases hform : SliceForm.ofHeader header extension with
  | error error => rfl
  | ok form =>
    rw [← SliceForm.multiview_of_ofHeader hform]
    exact readAs_eq hsets form

theorem ofUnit_eq_ok_iff {sets : ParamSets} {header : SliceHeader} :
    ofUnit sets unit = .ok header ↔ ∃ data first extension, unit.rbsp = .ok data ∧
      unit.checkedHeader = .ok first ∧ unit.headerExtension = .ok extension ∧
      Read.value (read sets first extension) data = .ok header := by
  unfold ofUnit
  constructor
  · intro h
    obtain ⟨data, hdata, hrest⟩ := exists_of_bind_eq_ok h
    obtain ⟨first, hfirst, hrest⟩ := exists_of_bind_eq_ok hrest
    obtain ⟨extension, hextension, hread⟩ := exists_of_bind_eq_ok hrest
    exact ⟨data, first, extension, hdata, hfirst, hextension, hread⟩
  · rintro ⟨data, first, extension, hdata, hfirst, hextension, hread⟩
    rw [hdata, hfirst, hextension]
    exact hread

theorem ofUnit_of_overwide (hsets : sets.FieldWidths) {width : Nat}
    (h : Overwide sets unit width) :
    ofUnit sets unit = .error (.misuse (.readWidth width)) := by
  obtain ⟨header, pps, sps, hheader, hfind, hwidth, hwide⟩ := h
  obtain ⟨data, first, extension, hdata, hfirst, hextension, hread⟩ := ofUnit_eq_ok_iff.mp hheader
  have hcycle : readCycleOf sets first.unitType.hasHeaderExtension header =
      throw (.misuse (.readWidth width)) := by
    rw [← NalUnit.hasHeaderExtension_of_checkedHeader hfirst, readCycleOf_eq hfind,
      readCycle_of_wide hwidth hwide]
  unfold ofUnit
  rw [hdata, hfirst, hextension]
  show Read.value (read sets first extension) data = _
  rw [read_eq hsets]
  exact value_bind_throw hread hcycle

theorem checked_ofUnit (hsets : sets.FieldWidths) {type : UnitType}
    (htype : unit.type? = some type) (hslice : type.hasSliceHeader = true)
    (h : ∀ width, ¬Overwide sets unit width) : CheckedOutcome (ofUnit sets unit) := by
  unfold ofUnit
  refine .bind unit.checked_rbsp fun data hdata => ?_
  refine .bind unit.checked_checkedHeader fun first hfirst => ?_
  refine .bind unit.checked_headerExtension fun extension hextension => ?_
  have hfirstType : first.unitType = type := by
    have := NalUnit.type?_of_checkedHeader hfirst
    rw [htype] at this
    exact (Option.some.inj this).symm
  rw [read_eq hsets]
  refine Checked.value_bind ?_ fun header hheader => ?_
  · -- up to the change cycle
    rw [← hfirstType] at hslice
    have hform := SliceForm.checked_ofHeader hslice fun hext =>
      NalUnit.isSome_of_headerExtension (NalUnit.type?_of_checkedHeader hfirst) hext hextension
    exact .bind (checked_ofExcept hform) fun form => checked_readAs_withoutGroups hsets form
  · unfold readCycleOf
    refine .bindWith (yields_ofExcept (checked_findParamSets _ _ _) fun _ hfind => hfind) ?_
    rintro ⟨pps, sps⟩ hfind
    refine checked_readCycle (fun width hwidth => Nat.not_lt.mp fun hwide => h width ?_) header
    rw [← NalUnit.hasHeaderExtension_of_checkedHeader hfirst] at hfind
    refine ⟨header, pps, sps, ?_, hfind, hwidth, hwide⟩
    exact ofUnit_eq_ok_iff.mpr ⟨data, first, extension, hdata, hfirst, hextension, hheader⟩

theorem hasSliceHeader_of_ofUnit {header : SliceHeader} (h : ofUnit sets unit = .ok header) :
    ∃ first, unit.checkedHeader = .ok first ∧ first.unitType.hasSliceHeader = true := by
  obtain ⟨data, first, extension, -, hfirst, -, hread⟩ := ofUnit_eq_ok_iff.mp h
  refine ⟨first, hfirst, ?_⟩
  unfold read at hread
  cases hform : SliceForm.ofHeader first extension with
  | error error =>
    rw [hform] at hread
    cases hread
  | ok form => exact SliceForm.hasSliceHeader_of_ofHeader hform

end SliceHeader

/-! ## Units -/

namespace Record

variable {sets : ParamSets} {unit : NalUnit}

theorem ofUnitAs_of_hasSliceHeader {type : UnitType} (h : type.hasSliceHeader = true) :
    ofUnitAs type sets unit = (some ∘ slice) <$> SliceHeader.ofUnit sets unit := by
  rcases UnitType.cases_of_hasSliceHeader h with rfl | rfl | rfl | rfl
  all_goals rfl

/-- An overwide slice fails, and with an error that is no property of a stream. -/
theorem ofUnit_of_overwide (hsets : sets.FieldWidths) {width : Nat}
    (h : Overwide sets unit width) :
    ofUnit sets unit = .error (.misuse (.readWidth width)) := by
  have hslice := SliceHeader.ofUnit_of_overwide hsets h
  obtain ⟨header, -, -, hheader, -⟩ := h
  obtain ⟨first, hfirst, htype⟩ := SliceHeader.hasSliceHeader_of_ofUnit hheader
  unfold ofUnit
  rw [hfirst]
  show (ofUnitAs first.unitType sets unit >>= _) = _
  rw [ofUnitAs_of_hasSliceHeader htype, hslice]
  rfl

theorem checked_ofUnitAs {type : UnitType} (h : type.hasSliceHeader = false) :
    CheckedOutcome (ofUnitAs type sets unit) := by
  cases type with
  | seqParameterSet => exact .map (unit.checked_readRbsp SeqParameterSet.yields_read.checked)
  | picParameterSet => exact .map (unit.checked_readRbsp (PicParameterSet.checked_read _))
  | sei => exact .map (SeiMessage.checked_ofUnit unit)
  | accessUnitDelimiter => exact .map (unit.checked_readRbsp AccessUnitDelimiter.checked_read)
  | seqParameterSetExtension => exact .map (unit.checked_readRbsp SpsExtension.checked_read)
  | prefixUnit => exact .map (PrefixUnit.checked_ofUnit unit)
  | subsetSeqParameterSet => exact .map (unit.checked_readRbsp SubsetSps.yields_read.checked)
  | nonIdrSlice | idrSlice | sliceExtension | sliceExtensionDepthView => cases h
  | _ => exact .ok none

/-- Every other unit is decoded or fails with an error that a stream can cause. -/
theorem checked_ofUnit (hsets : sets.FieldWidths) (h : ∀ width, ¬Overwide sets unit width) :
    CheckedOutcome (ofUnit sets unit) := by
  unfold ofUnit
  refine .bind unit.checked_checkedHeader fun first hfirst => .bind ?_ fun record _ => ?_
  · by_cases hslice : first.unitType.hasSliceHeader = true
    · have htype := NalUnit.type?_of_checkedHeader hfirst
      rw [ofUnitAs_of_hasSliceHeader hslice]
      exact .map (SliceHeader.checked_ofUnit hsets htype hslice h)
    · exact checked_ofUnitAs (Bool.eq_false_iff.mpr hslice)
  · cases record with
    | some record => exact .ok record
    | none => exact .ok _

end Record

end H264
