import H264.DecoderConfig
import H264.Proofs.Faults.Overwide

/-!
# Decoded parameter sets

`ParamSets.Decoded` says that every parameter set was once read from some data. Fields that such
sets govern in slices have widths that can be read (`fieldWidths_of_decoded`), and what a unit holds
is stored as such a set (`decoded_storeRecord`).
-/

namespace H264

open Read

/-- What holds of the entries of a table and of a new one holds after the new one is stored. -/
theorem Table.forall_store {α : Type} {table : Table α} {property : α → Prop}
    (h : ∀ id entry, table.find? id = some entry → property entry) {key : Nat} {stored : α}
    (hstored : property stored) :
    ∀ id entry, (table.store key stored).find? id = some entry → property entry := by
  intro id entry hfind
  rw [find_store] at hfind
  by_cases hid : id = key
  · rw [if_pos hid] at hfind
    cases hfind
    exact hstored
  · rw [if_neg hid] at hfind
    exact h id entry hfind

namespace ParamSets

/-- Parameter sets that were read from data, in any order and against any others. -/
inductive Decoded : ParamSets → Prop
  | empty : Decoded {}
  | storeSps {sets : ParamSets} {sps : SeqParameterSet} :
    Decoded sets → Gives SeqParameterSet.readData sps → Decoded (sets.storeSps sps)
  | storePps {sets : ParamSets} {pps : PicParameterSet} (findSps : Nat → Option SeqParameterSet) :
    Decoded sets → Gives (PicParameterSet.read findSps) pps → Decoded (sets.storePps pps)
  | storeSubsetSps {sets : ParamSets} {subset : SubsetSps} :
    Decoded sets → Gives SubsetSps.read subset → Decoded (sets.storeSubsetSps subset)

/-- The sets of each kind have a property. -/
structure Each (onSps : SeqParameterSet → Prop) (onPps : PicParameterSet → Prop)
    (onSubset : SubsetSps → Prop) (sets : ParamSets) : Prop where
  sps : ∀ id sps, sets.sps? id = some sps → onSps sps
  pps : ∀ id pps, sets.pps? id = some pps → onPps pps
  subset : ∀ id subset, sets.subsetSps? id = some subset → onSubset subset

/-- What holds of everything that is read holds of decoded sets. -/
theorem each_of_decoded {onSps : SeqParameterSet → Prop} {onPps : PicParameterSet → Prop}
    {onSubset : SubsetSps → Prop} (hsps : ∀ sps, Gives SeqParameterSet.readData sps → onSps sps)
    (hpps : ∀ findSps pps, Gives (PicParameterSet.read findSps) pps → onPps pps)
    (hsubset : ∀ subset, Gives SubsetSps.read subset → onSubset subset)
    {sets : ParamSets} (h : Decoded sets) : sets.Each onSps onPps onSubset := by
  induction h with
  | empty => exact ⟨by rintro id sps ⟨⟩, by rintro id pps ⟨⟩, by rintro id subset ⟨⟩⟩
  | storeSps _ hgives ih => exact ⟨Table.forall_store ih.sps (hsps _ hgives), ih.pps, ih.subset⟩
  | storePps findSps _ hgives ih =>
    exact ⟨ih.sps, Table.forall_store ih.pps (hpps findSps _ hgives), ih.subset⟩
  | storeSubsetSps _ hgives ih =>
    exact ⟨ih.sps, ih.pps, Table.forall_store ih.subset (hsubset _ hgives)⟩

theorem fieldWidths_of_decoded {sets : ParamSets} (h : Decoded sets) : sets.FieldWidths := by
  have heach := each_of_decoded (fun _ => SeqParameterSet.yields_readData.of_gives)
    (fun _ _ _ => trivial) (fun _ => SubsetSps.yields_read.of_gives) h
  exact ⟨heach.sps, heach.subset⟩

/-! ## Storing what units hold -/

theorem gives_of_readRbsp {α : Type} {unit : NalUnit} {action : Read α} {value : α}
    (h : unit.readRbsp action = .ok value) : Gives action value := by
  obtain ⟨data, -, hread⟩ := exists_of_bind_eq_ok h
  exact Gives.of_value hread

theorem gives_readData {sps : SeqParameterSet} (h : Gives SeqParameterSet.read sps) :
    Gives SeqParameterSet.readData sps := by
  obtain ⟨found, hfound, hclose⟩ := h.of_bind
  obtain ⟨_, _, _, _, hsame⟩ := hclose.of_bind
  cases hsame
  exact hfound

theorem exists_of_map_eq_ok {α : Type} {wrap : α → Record} {outcome : Except Error α}
    {record : Record} (h : (some ∘ wrap) <$> outcome = .ok (some record)) :
    ∃ value, outcome = .ok value ∧ wrap value = record := by
  cases outcome with
  | error error => cases h
  | ok value =>
    cases h
    exact ⟨value, rfl, rfl⟩

theorem decoded_of_ofUnitAs {sets : ParamSets} (hsets : Decoded sets) {type : UnitType}
    {unit : NalUnit} {record : Record}
    (h : Record.ofUnitAs type sets unit = .ok (some record)) :
    Decoded (sets.storeRecord record) := by
  cases type with
  | seqParameterSet =>
    obtain ⟨sps, hsps, rfl⟩ := exists_of_map_eq_ok h
    exact hsets.storeSps (gives_readData (gives_of_readRbsp hsps))
  | picParameterSet =>
    obtain ⟨pps, hpps, rfl⟩ := exists_of_map_eq_ok h
    exact hsets.storePps sets.sps? (gives_of_readRbsp hpps)
  | subsetSeqParameterSet =>
    obtain ⟨subset, hsubset, rfl⟩ := exists_of_map_eq_ok h
    exact hsets.storeSubsetSps (gives_of_readRbsp hsubset)
  | nonIdrSlice | idrSlice | sliceExtension | sliceExtensionDepthView | sei | accessUnitDelimiter
    | seqParameterSetExtension | prefixUnit =>
    obtain ⟨value, -, rfl⟩ := exists_of_map_eq_ok h
    exact hsets
  | _ => cases h

theorem decoded_storeRecord {sets : ParamSets} (hsets : Decoded sets) {unit : NalUnit}
    {record : Record} (h : Record.ofUnit sets unit = .ok record) :
    Decoded (sets.storeRecord record) := by
  obtain ⟨header, -, hunit⟩ := exists_of_bind_eq_ok h
  obtain ⟨found, hfound, hrecord⟩ := exists_of_bind_eq_ok hunit
  cases found with
  | none =>
    cases hrecord
    exact hsets
  | some found =>
    cases hrecord
    exact decoded_of_ofUnitAs hsets hfound

/-! ## Sets from units -/

theorem decoded_foldlM {step : ParamSets → NalUnit → Except Error ParamSets}
    (hstep : ∀ sets unit after, Decoded sets → step sets unit = .ok after → Decoded after)
    {units : List NalUnit} {start sets : ParamSets} (hstart : Decoded start)
    (h : units.foldlM step start = .ok sets) : Decoded sets := by
  induction units generalizing start with
  | nil =>
    cases h
    exact hstart
  | cons unit units ih =>
    rw [List.foldlM_cons] at h
    obtain ⟨mid, hfirst, hrest⟩ := exists_of_bind_eq_ok h
    exact ih (hstep start unit mid hstart hfirst) hrest

theorem decoded_ofUnits {units : List NalUnit} {sets : ParamSets}
    (h : ofUnits units = .ok sets) : Decoded sets := by
  refine decoded_foldlM ?_ .empty h
  intro before unit after hbefore hstep
  obtain ⟨record, hrecord, hstored⟩ := exists_of_bind_eq_ok hstep
  cases hstored
  exact decoded_storeRecord hbefore hrecord

end ParamSets

end H264
