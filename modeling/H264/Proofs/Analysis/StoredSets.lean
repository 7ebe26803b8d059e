import H264.Proofs.Analysis.Run

/-!
# What a run of units stores

Each unit is decoded against the parameter sets that the units before it have left. The sequence,
picture and subset sequence parameter sets have identifiers of their own (`IdSpace`), and under each
identifier stands what was decoded last with it. A unit that cannot be decoded, or that is no
parameter set, stores nothing.

* `IdSpace.holdsLast_setsAfter` — what each table holds after some units;
* `setsAfterUnit_of_other` — the units that store nothing;
* **`sets_hold_last_decoded`** — the parameter sets before, between and after the units of a run.
-/

namespace H264

open Framing

/-! ## Tables that are stored to -/

namespace Table

variable {α : Type}

theorem mem_store {table : Table α} {id : Nat} {entry : α} {pair : Nat × α}
    (h : pair ∈ table.store id entry) : pair = (id, entry) ∨ pair ∈ table := by
  induction table with
  | nil => exact .inl (List.mem_singleton.mp h)
  | cons first rest ih =>
    obtain ⟨other, old⟩ := first
    unfold store at h
    by_cases hid : other = id
    · rw [if_pos hid] at h
      rcases List.mem_cons.mp h with hhere | hrest
      · exact .inl hhere
      · exact .inr (List.mem_cons_of_mem _ hrest)
    · rw [if_neg hid] at h
      rcases List.mem_cons.mp h with hhere | hrest
      · exact .inr (hhere ▸ List.mem_cons_self)
      · rcases ih hrest with hnew | hold
        · exact .inl hnew
        · exact .inr (List.mem_cons_of_mem _ hold)

/-- After some entries are stored, each under its identifier, an identifier gives the last of them
that has it. -/
theorem find?_foldl_store (idOf : α → Nat) (entries : List α) (table : Table α) (id : Nat) :
    (entries.foldl (fun table entry => table.store (idOf entry) entry) table).find? id =
      (entries.filter fun entry => idOf entry = id).getLast?.or (table.find? id) := by
  induction entries generalizing table with
  | nil => rfl
  | cons entry entries ih =>
    rw [List.foldl_cons, ih, find_store, List.filter_cons]
    by_cases hid : idOf entry = id
    · rw [if_pos hid.symm, if_pos (decide_eq_true hid), List.getLast?_cons]
      cases (entries.filter fun entry => idOf entry = id).getLast? with
      | none => rfl
      | some last => rfl
    · rw [if_neg (Ne.symm hid), if_neg (by simpa using hid)]

/-- Every entry stands under its own identifier, and no two under the same. -/
structure Keyed (idOf : α → Nat) (table : Table α) : Prop where
  key : ∀ pair ∈ table, pair.1 = idOf pair.2
  distinct : table.ids.Nodup

variable {idOf : α → Nat}

theorem nodup_ids_store {table : Table α} (h : table.ids.Nodup) (id : Nat) (entry : α) :
    (table.store id entry).ids.Nodup := by
  induction table with
  | nil => exact List.pairwise_singleton _ id
  | cons first rest ih =>
    obtain ⟨other, old⟩ := first
    obtain ⟨hother, hrest⟩ := List.nodup_cons.mp h
    unfold store
    by_cases hid : other = id
    · rw [if_pos hid]
      exact List.nodup_cons.mpr ⟨hid ▸ hother, hrest⟩
    · rw [if_neg hid]
      refine List.nodup_cons.mpr ⟨fun hmem => ?_, ih hrest⟩
      obtain ⟨pair, hpair, rfl⟩ := List.mem_map.mp hmem
      rcases mem_store hpair with rfl | hold
      · exact hid rfl
      · exact hother (List.mem_map.mpr ⟨pair, hold, rfl⟩)

theorem Keyed.store {table : Table α} (h : table.Keyed idOf) (entry : α) :
    (table.store (idOf entry) entry).Keyed idOf where
  key := by
    intro pair hmem
    rcases mem_store hmem with rfl | hold
    · rfl
    · exact h.key pair hold
  distinct := nodup_ids_store h.distinct _ _

theorem Keyed.foldl_store {table : Table α} (h : table.Keyed idOf) (entries : List α) :
    (entries.foldl (fun table entry => table.store (idOf entry) entry) table).Keyed idOf := by
  induction entries generalizing table with
  | nil => exact h
  | cons entry entries ih => exact ih (h.store entry)

end Table

/-! ## The three kinds of parameter sets -/

/-- A kind of parameter set: the table it is kept in, the records that are of it, and their
identifiers. Storing a record of another kind leaves the table as it is. -/
structure IdSpace (α : Type) where
  table : ParamSets → Table α
  entry? : Record → Option α
  id : α → Nat
  table_storeRecord (sets : ParamSets) (record : Record) :
    table (sets.storeRecord record) =
      match entry? record with
      | some entry => (table sets).store (id entry) entry
      | none => table sets

namespace IdSpace

/-- Sequence parameter sets. -/
def sequence : IdSpace SeqParameterSet where
  table := ParamSets.sps
  entry?
    | .sps sps => some sps
    | _ => none
  id := SeqParameterSet.id
  table_storeRecord sets record := by cases record <;> rfl

/-- Picture parameter sets. -/
def picture : IdSpace PicParameterSet where
  table := ParamSets.pps
  entry?
    | .pps pps => some pps
    | _ => none
  id := PicParameterSet.id
  table_storeRecord sets record := by cases record <;> rfl

/-- Subset sequence parameter sets. -/
def subset : IdSpace SubsetSps where
  table := ParamSets.subsetSps
  entry?
    | .subsetSps subset => some subset
    | _ => none
  id := SubsetSps.id
  table_storeRecord sets record := by cases record <;> rfl

variable {α : Type} (space : IdSpace α)

/-- The parameter sets of a kind among what units hold. -/
def decoded (outcomes : List (Except Error Record)) : List α :=
  outcomes.filterMap fun outcome => outcome.toOption.bind space.entry?

/-- The last parameter set of a kind that was decoded with an identifier. -/
def last? (outcomes : List (Except Error Record)) (id : Nat) : Option α :=
  ((space.decoded outcomes).filter fun entry => space.id entry = id).getLast?

/-- Under each identifier stands the last parameter set that was decoded with it, or else what stood
there at first. -/
structure HoldsLast (initial : ParamSets) (outcomes : List (Except Error Record))
    (sets : ParamSets) : Prop where
  find? : ∀ id, (space.table sets).find? id =
    (space.last? outcomes id).or ((space.table initial).find? id)
  keyed : (space.table sets).Keyed space.id

end IdSpace

/-- Parameter sets that were stored one after the other, whatever they are. -/
inductive ParamSets.Built : ParamSets → Prop
  | empty : Built {}
  | store {sets : ParamSets} (record : Record) : Built sets → Built (sets.storeRecord record)

namespace IdSpace

variable {α : Type} {space : IdSpace α}

theorem keyed_of_built (hempty : space.table {} = []) {sets : ParamSets} (h : sets.Built) :
    (space.table sets).Keyed space.id := by
  induction h with
  | empty =>
    rw [hempty]
    refine ⟨fun pair hmem => ?_, List.nodup_nil⟩
    cases hmem
  | store record _ ih =>
    rw [space.table_storeRecord]
    cases space.entry? record with
    | none => exact ih
    | some entry => exact ih.store entry

/-! ## What some units store -/

theorem table_setsAfterUnit (sets : ParamSets) (unit : NalUnit) :
    space.table (setsAfterUnit true sets unit) =
      match (Record.ofUnit sets unit).toOption.bind space.entry? with
      | some entry => (space.table sets).store (space.id entry) entry
      | none => space.table sets := by
  unfold setsAfterUnit
  cases Record.ofUnit sets unit with
  | error error => rfl
  | ok record => exact space.table_storeRecord sets record

/-- The table of a kind after some units: what was decoded is stored in order. -/
theorem table_setsAfter (sets : ParamSets) (units : List NalUnit) :
    space.table (setsAfter true sets units) =
      (space.decoded (outcomes true sets units)).foldl
        (fun table entry => table.store (space.id entry) entry) (space.table sets) := by
  induction units generalizing sets with
  | nil => rfl
  | cons unit units ih =>
    show space.table (setsAfter true (setsAfterUnit true sets unit) units) =
      (space.decoded (Record.ofUnit sets unit ::
        outcomes true (setsAfterUnit true sets unit) units)).foldl _ _
    rw [ih, table_setsAfterUnit]
    unfold decoded
    rw [List.filterMap_cons]
    cases (Record.ofUnit sets unit).toOption.bind space.entry? with
    | none => rfl
    | some entry => rfl

theorem holdsLast_setsAfter {sets : ParamSets} (h : (space.table sets).Keyed space.id)
    (units : List NalUnit) :
    space.HoldsLast sets (outcomes true sets units) (setsAfter true sets units) where
  find? id := by
    rw [table_setsAfter, Table.find?_foldl_store]
    rfl
  keyed := by
    rw [table_setsAfter]
    exact h.foldl_store _

end IdSpace

/-! ## Units that store nothing -/

/-- The units that may hold a parameter set: those of the types 7, 8 and 15. -/
def NalUnit.MayStore (unit : NalUnit) : Prop :=
  ∃ type, unit.type? = some type ∧ type.code ∈ [7, 8, 15]

namespace ParamSets

theorem storeRecord_of_ofUnitAs {sets : ParamSets} {type : UnitType} {unit : NalUnit}
    {record : Record} (h : Record.ofUnitAs type sets unit = .ok (some record))
    (htype : type.code ∉ [7, 8, 15]) : sets.storeRecord record = sets := by
  cases type with
  | seqParameterSet | picParameterSet | subsetSeqParameterSet =>
    exact absurd (by decide) htype
  | nonIdrSlice | idrSlice | sliceExtension | sliceExtensionDepthView | sei | accessUnitDelimiter
    | seqParameterSetExtension | prefixUnit =>
    obtain ⟨value, -, rfl⟩ := exists_of_map_eq_ok h
    rfl
  | _ => cases h

theorem storeRecord_of_ofUnit {sets : ParamSets} {unit : NalUnit} {record : Record}
    (h : Record.ofUnit sets unit = .ok record) (htype : ¬unit.MayStore) :
    sets.storeRecord record = sets := by
  obtain ⟨header, hheader, hunit⟩ := exists_of_bind_eq_ok h
  obtain ⟨found, hfound, hrecord⟩ := exists_of_bind_eq_ok hunit
  cases found with
  | none =>
    cases hrecord
    rfl
  | some found =>
    cases hrecord
    exact storeRecord_of_ofUnitAs hfound fun hcode =>
      htype ⟨header.unitType, NalUnit.type?_of_checkedHeader hheader, hcode⟩

end ParamSets

theorem setsAfterUnit_of_error {update : Bool} {sets : ParamSets} {unit : NalUnit} {error : Error}
    (h : Record.ofUnit sets unit = .error error) : setsAfterUnit update sets unit = sets := by
  unfold setsAfterUnit
  rw [h]

theorem setsAfterUnit_of_other (update : Bool) (sets : ParamSets) {unit : NalUnit}
    (htype : ¬unit.MayStore) : setsAfterUnit update sets unit = sets := by
  unfold setsAfterUnit
  cases hrecord : Record.ofUnit sets unit with
  | error error => rfl
  | ok record =>
    cases update with
    | false => rfl
    | true => exact ParamSets.storeRecord_of_ofUnit hrecord htype

theorem setsAfterUnit_false (sets : ParamSets) (unit : NalUnit) :
    setsAfterUnit false sets unit = sets := by
  unfold setsAfterUnit
  cases Record.ofUnit sets unit with
  | error error => rfl
  | ok record => rfl

theorem setsAfter_false (sets : ParamSets) (units : List NalUnit) :
    setsAfter false sets units = sets := by
  induction units with
  | nil => rfl
  | cons unit units ih =>
    show setsAfter false (setsAfterUnit false sets unit) units = sets
    rw [setsAfterUnit_false, ih]

/-! ## From unit to unit -/

theorem getElem?_outcomes (update : Bool) (sets : ParamSets) (units : List NalUnit) (k : Nat) :
    (outcomes update sets units)[k]? =
      units[k]?.map (Record.ofUnit (setsAfter update sets (units.take k))) := by
  induction units generalizing sets k with
  | nil => rfl
  | cons unit units ih =>
    cases k with
    | zero => rfl
    | succ k => exact ih (setsAfterUnit update sets unit) k

theorem take_outcomes (update : Bool) (sets : ParamSets) (units : List NalUnit) (k : Nat) :
    (outcomes update sets units).take k = outcomes update sets (units.take k) := by
  induction units generalizing sets k with
  | nil => rw [List.take_nil, outcomes, List.take_nil]
  | cons unit units ih =>
    cases k with
    | zero => rfl
    | succ k => exact congrArg (Record.ofUnit sets unit :: ·) (ih _ k)

theorem setsAfter_take_succ {update : Bool} {sets : ParamSets} {units : List NalUnit} {k : Nat}
    {unit : NalUnit} (h : units[k]? = some unit) :
    setsAfter update sets (units.take (k + 1)) =
      setsAfterUnit update (setsAfter update sets (units.take k)) unit := by
  rw [List.take_add_one, h, setsAfter_append]
  rfl

namespace Analyzer

/-- The parameter sets that the units of an analysis are decoded against, by index. -/
structure Threaded (before : Analyzer) (results : List UnitResult)
    (context : Nat → ParamSets) : Prop where
  /-- The units before an index, and no others, have left the parameter sets of that index. -/
  left_by_before : ∀ k, ∃ earlier mid,
    analyzeUnits ((results.map UnitResult.unit).take k) before = .ok earlier mid ∧
      mid.sets = context k
  decoded : ∀ k result, results[k]? = some result →
    result.outcome = Record.ofUnit (context k) result.unit
  unchanged_of_error : ∀ k result error, results[k]? = some result →
    result.outcome = .error error → context (k + 1) = context k
  unchanged_of_other : ∀ k result, results[k]? = some result → ¬result.unit.MayStore →
    context (k + 1) = context k

theorem Analyzed.threaded {before after : Analyzer} {units : List NalUnit}
    {results : List UnitResult} (h : Analyzed before units results after)
    (hchecked : ∀ outcome ∈ outcomes before.updateSets before.sets units,
      CheckedOutcome outcome) :
    Threaded before results
      fun k => setsAfter before.updateSets before.sets (units.take k) := by
  have hunit : ∀ (k : Nat) (result : UnitResult), results[k]? = some result →
      units[k]? = some result.unit := by
    intro k result hresult
    rw [← h.taken, List.getElem?_map, hresult]
    rfl
  have hdecoded : ∀ (k : Nat) (result : UnitResult), results[k]? = some result → result.outcome =
      Record.ofUnit (setsAfter before.updateSets before.sets (units.take k)) result.unit := by
    intro k result hresult
    have houtcome := getElem?_outcomes before.updateSets before.sets units k
    rw [← h.decoded, List.getElem?_map, hresult, hunit k result hresult] at houtcome
    exact Option.some.inj houtcome
  constructor
  case left_by_before =>
    intro k
    rw [h.taken]
    have hfirst : ∀ outcome ∈ outcomes before.updateSets before.sets (units.take k),
        CheckedOutcome outcome := by
      intro outcome hmem
      rw [← take_outcomes] at hmem
      exact hchecked outcome (List.mem_of_mem_take hmem)
    obtain ⟨earlier, mid, hrun, hdone⟩ := exists_analyzed hfirst
    exact ⟨earlier, mid, hrun, hdone.sets⟩
  case decoded => exact hdecoded
  case unchanged_of_error =>
    intro k result error hresult herror
    rw [setsAfter_take_succ (hunit k result hresult)]
    exact setsAfterUnit_of_error ((hdecoded k result hresult).symm.trans herror)
  case unchanged_of_other =>
    intro k result hresult hother
    rw [setsAfter_take_succ (hunit k result hresult)]
    exact setsAfterUnit_of_other _ _ hother

/-! ## Analyses that leave their parameter sets alone -/

/-- The analyzer that a run leaves, also where it is stopped. -/
def leftBy : EStateM.Result Error Analyzer (List UnitResult) → Analyzer
  | .ok _ after => after
  | .error _ after => after

/-- What an action does where parameter sets are not kept current: they stay as they are. -/
def LeavesSets (action : Analyze (List UnitResult)) (before : Analyzer) (framer : Framer) : Prop :=
  before.updateSets = false →
    match action before with
    | .ok _ after => after.sets = before.sets ∧ after.updateSets = false ∧ after.framer = framer
    | .error _ after => after.sets = before.sets

theorem leavesSets_analyzeUnit (before : Analyzer) (unit : NalUnit) :
    LeavesSets ((fun result => [result]) <$> analyzeUnit unit) before before.framer := by
  intro hupdate
  cases hrecord : Record.ofUnit before.sets unit with
  | ok record =>
    rw [map_of_ok (analyzeUnit_of_ok hrecord), keep_eq]
    refine ⟨?_, hupdate, rfl⟩
    show (if before.updateSets then _ else before.sets) = before.sets
    rw [hupdate]
    rfl
  | error error =>
    cases hbitstream : error.isBitstream with
    | true =>
      rw [map_of_ok (analyzeUnit_of_bitstream hrecord hbitstream)]
      exact ⟨rfl, hupdate, rfl⟩
    | false =>
      rw [map_of_error (analyzeUnit_of_misuse hrecord hbitstream)]
      rfl

theorem leavesSets_both {first second : Analyze (List UnitResult)} {before : Analyzer}
    {middle framer : Framer} (hfirst : LeavesSets first before middle)
    (hsecond : ∀ mid, mid.framer = middle → LeavesSets second mid framer) :
    LeavesSets (both first second) before framer := by
  intro hupdate
  have hmid := hfirst hupdate
  cases hrun : first before with
  | error error mid =>
    rw [hrun] at hmid
    rw [both_of_error hrun]
    exact hmid
  | ok results mid =>
    rw [hrun] at hmid
    obtain ⟨hmidSets, hmidUpdate, hmidFramer⟩ := hmid
    have hlast := hsecond mid hmidFramer hmidUpdate
    rw [hmidSets] at hlast
    rw [both_of_ok hrun]
    cases hrest : second mid with
    | error error after =>
      rw [hrest] at hlast
      rw [map_of_error hrest]
      exact hlast
    | ok more after =>
      rw [hrest] at hlast
      rw [map_of_ok hrest]
      exact hlast

theorem stepwise_leavesSets : Stepwise fun action before _ framer =>
    LeavesSets action before framer where
  nothing before hupdate := ⟨rfl, hupdate, rfl⟩
  unit := leavesSets_analyzeUnit
  both := leavesSets_both
  framed haction hunits hupdate := by
    rw [haction]
    exact hunits hupdate
  logged {action before _ _} issue haction hupdate := by
    have hmid := haction hupdate
    unfold thenLog
    cases hrun : action before with
    | error error after =>
      rw [hrun] at hmid
      rw [bind_of_error hrun]
      exact hmid
    | ok results after =>
      rw [hrun] at hmid
      rw [bind_of_ok hrun]
      exact hmid

theorem sets_leftBy_performAll {before : Analyzer} (h : before.updateSets = false)
    (calls : List Call) : (leftBy (performAll calls before)).sets = before.sets := by
  have hrun := stepwise_leavesSets.performAll before calls h
  cases hend : performAll calls before with
  | error error after =>
    rw [hend] at hrun
    exact hrun
  | ok results after =>
    rw [hend] at hrun
    exact hrun.1

/-! ## Whole runs -/

/-- The three kinds of parameter sets hold what was decoded last. -/
structure HoldLast (initial : ParamSets) (outcomes : List (Except Error Record))
    (sets : ParamSets) : Prop where
  sequence : IdSpace.sequence.HoldsLast initial outcomes sets
  picture : IdSpace.picture.HoldsLast initial outcomes sets
  subset : IdSpace.subset.HoldsLast initial outcomes sets

theorem holdLast_setsAfter {sets : ParamSets} (h : sets.Built) (units : List NalUnit) :
    HoldLast sets (outcomes true sets units) (setsAfter true sets units) where
  sequence := IdSpace.holdsLast_setsAfter (IdSpace.keyed_of_built rfl h) units
  picture := IdSpace.holdsLast_setsAfter (IdSpace.keyed_of_built rfl h) units
  subset := IdSpace.holdsLast_setsAfter (IdSpace.keyed_of_built rfl h) units

/-- **What a run stores.** If all errors of a run are ones that a stream can cause, each unit is
decoded against the parameter sets that just the units before it leave. With updates, each
identifier of each kind then has what was decoded last with it, or what it had at first. Without
updates the parameter sets never change, whatever errors there are. -/
theorem sets_hold_last_decoded {analyzer : Analyzer} (hbuilt : analyzer.sets.Built)
    (calls : List Call) :
    (analyzer.updateSets = false →
      (leftBy (performAll calls analyzer)).sets = analyzer.sets) ∧
    ((∀ outcome ∈ outcomes analyzer.updateSets analyzer.sets (frameAll analyzer.framer calls).1,
        CheckedOutcome outcome) →
      ∃ results after context, performAll calls analyzer = .ok results after ∧
        results.map UnitResult.unit = (frameAll analyzer.framer calls).1 ∧
        Threaded analyzer results context ∧ after.sets = context results.length ∧
        (analyzer.updateSets = true → ∀ k,
          HoldLast analyzer.sets ((results.take k).map UnitResult.outcome) (context k)) ∧
        (analyzer.updateSets = false → ∀ k, context k = analyzer.sets)) := by
  refine ⟨fun hupdate => sets_leftBy_performAll hupdate calls, fun hchecked => ?_⟩
  obtain ⟨results, after, hrun, hdone, -⟩ :=
    stepwise_completes.performAll analyzer calls hchecked
  refine ⟨results, after, _, hrun, hdone.taken, hdone.threaded hchecked, ?_, ?_, ?_⟩
  · -- all the units are before the end
    rw [hdone.sets, ← hdone.taken, ← List.length_map UnitResult.unit, List.take_length]
  · intro hupdate k
    rw [List.map_take, hdone.decoded, take_outcomes, hupdate]
    exact holdLast_setsAfter hbuilt _
  · intro hupdate k
    rw [hupdate, setsAfter_false]

/-- A sequence and a picture parameter set, a slice that they govern, a delimiter with an illegal
escape, and a sequence parameter set that replaces the first. -/
def replacingUnits : List NalUnit :=
  [{ bytes := [0x67, 0x42, 0x00, 0x0a, 0xf8, 0x41, 0xa2] },
   { bytes := [0x68, 0xce, 0x38, 0x80] },
   { bytes := [0x65, 0x88, 0x84, 0x0a] },
   { bytes := [0x09, 0x00, 0x00, 0x03, 0x04] },
   { bytes := [0x67, 0x42, 0x00, 0x0b, 0xf8, 0x41, 0xa2] }]

/-- All five units have a result, and what the last one holds stands in the place of the first. -/
theorem sets_hold_last_decoded_replacingUnits :
    ParamSets.Built {} ∧ ∃ results after context,
      performAll [.units replacingUnits] {} = .ok results after ∧
        results.map UnitResult.unit = replacingUnits ∧ Threaded {} results context ∧
        after.sets = context 5 ∧
        HoldLast {} ((results.take 5).map UnitResult.outcome) after.sets ∧
        after.sets.sps.map (fun pair => (pair.1, pair.2.levelIdc)) = [(0, 11)] := by
  obtain ⟨results, after, context, hrun, htaken, hthreaded, hlast, hheld, -⟩ :=
    (@sets_hold_last_decoded {} .empty [.units replacingUnits]).2 (by decide +kernel)
  have hlength : results.length = 5 := by
    rw [← List.length_map UnitResult.unit, htaken]
    rfl
  rw [hlength] at hlast
  refine ⟨.empty, results, after, context, hrun, htaken, hthreaded, hlast, ?_, ?_⟩
  · rw [hlast]
    exact hheld rfl 5
  · have hends : (match performAll [.units replacingUnits] {} with
        | .ok _ after => after.sets.sps.map fun pair => (pair.1, pair.2.levelIdc)
        | .error .. => []) = [(0, 11)] := by decide +kernel
    rw [hrun] at hends
    exact hends

end Analyzer

end H264
