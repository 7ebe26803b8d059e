import H264.Proofs.Analysis.Dependence
import H264.Proofs.Config.ParamSets
import Mathlib.Data.List.Nodup

/-!
# Parameter sets in another order

Parameter sets may come in any order, but for one thing: a picture parameter set with 8x8 scaling
lists looks at the sequence that it names. As long as such a set stays on the same side of every
unit that holds its sequence, and no identifier comes twice, an order gives each unit what any other
order gives it, and leaves parameter sets that answer alike: **`param_sets_order_independent`**.

* What a unit holds in an order depends on the parameter sets that the units before it leave
  (`outcomes_map`), and of these only on the sequence that it asks for (`Record.ofUnit_congr`).
* Which sequence that is, is decided by the units before it that hold it, and they are the same in
  both orders (`sps?_setsBefore`).
* So both orders store the same sets (`IdSpace.find?_setsAfter`, `IdSpace.last?_congr`).
-/

namespace H264

open Framing

/-! ## Names in order -/

section Names

variable {ι : Type} [DecidableEq ι]

/-- In an order, one name stands before another. -/
def Precedes (order : List ι) (earlier later : ι) : Prop :=
  [earlier, later].Sublist order

instance (order : List ι) (earlier later : ι) : Decidable (Precedes order earlier later) :=
  inferInstanceAs (Decidable ([earlier, later].Sublist order))

/-- The names before a name. -/
def namesBefore (order : List ι) (name : ι) : List ι :=
  order.takeWhile (· ≠ name)

theorem namesBefore_cons_self (name : ι) (order : List ι) : namesBefore (name :: order) name = [] := by
  unfold namesBefore
  rw [List.takeWhile_cons_of_neg (by simp)]

theorem namesBefore_cons_of_ne {first name : ι} (h : first ≠ name) (order : List ι) :
    namesBefore (first :: order) name = first :: namesBefore order name := by
  unfold namesBefore
  rw [List.takeWhile_cons_of_pos (by simpa using h)]

theorem mem_namesBefore_iff {order : List ι} (hnodup : order.Nodup) {earlier name : ι}
    (hname : name ∈ order) : earlier ∈ namesBefore order name ↔ Precedes order earlier name := by
  unfold Precedes
  induction order with
  | nil => cases hname
  | cons first order ih =>
    obtain ⟨hfirst, hnodup⟩ := List.nodup_cons.mp hnodup
    rw [List.cons_sublist_cons', List.singleton_sublist]
    by_cases hhere : first = name
    · -- nothing stands before the first name, which does not come again
      subst hhere
      rw [namesBefore_cons_self]
      constructor
      · intro hmem
        cases hmem
      · rintro (hlater | ⟨-, hmem⟩)
        · exact absurd (hlater.subset (by simp)) hfirst
        · exact absurd hmem hfirst
    · have hrest : name ∈ order := (List.mem_cons.mp hname).resolve_left (Ne.symm hhere)
      rw [namesBefore_cons_of_ne hhere, List.mem_cons, ih hnodup hrest]
      constructor
      · rintro (hsame | hlater)
        · exact .inr ⟨hsame, hrest⟩
        · exact .inl hlater
      · rintro (hlater | ⟨hsame, -⟩)
        · exact .inr hlater
        · exact .inl hsame

/-! ## What a unit holds in an order -/

variable (update : Bool) (sets : ParamSets) (unit : ι → NalUnit)

/-- The parameter sets that the units before a name leave. -/
def setsBefore (order : List ι) (name : ι) : ParamSets :=
  setsAfter update sets ((namesBefore order name).map unit)

/-- What the unit of a name holds where the units come in an order. -/
def outcomeIn (order : List ι) (name : ι) : Except Error Record :=
  Record.ofUnit (setsBefore update sets unit order name) (unit name)

theorem outcomes_map {order : List ι} (hnodup : order.Nodup) :
    outcomes update sets (order.map unit) = order.map (outcomeIn update sets unit order) := by
  induction order generalizing sets with
  | nil => rfl
  | cons first order ih =>
    obtain ⟨hfirst, hnodup⟩ := List.nodup_cons.mp hnodup
    rw [List.map_cons, List.map_cons]
    show Record.ofUnit sets (unit first) ::
      outcomes update (setsAfterUnit update sets (unit first)) (order.map unit) = _
    rw [ih _ hnodup]
    refine List.cons_eq_cons.mpr ⟨?_, List.map_congr_left fun name hname => ?_⟩
    · unfold outcomeIn setsBefore
      rw [namesBefore_cons_self]
      rfl
    · -- the first unit stands before the others
      have hne : first ≠ name := fun hsame => hfirst (hsame ▸ hname)
      unfold outcomeIn setsBefore
      rw [namesBefore_cons_of_ne hne]
      rfl

end Names

/-! ## Sequences before a unit -/

/-- Two lists with the same members, of which there is one at most, end alike. -/
theorem getLast?_eq_of_mem_iff {α : Type} {first second : List α}
    (hmem : ∀ x, x ∈ first ↔ x ∈ second) (honce : ∀ x ∈ first, ∀ y ∈ first, x = y) :
    first.getLast? = second.getLast? := by
  cases hlast : first.getLast? with
  | none =>
    rw [List.getLast?_eq_none_iff] at hlast
    subst hlast
    cases second with
    | nil => rfl
    | cons x rest => exact absurd ((hmem x).mpr List.mem_cons_self) List.not_mem_nil
  | some x =>
    have hx := List.mem_of_getLast? hlast
    cases hother : second.getLast? with
    | none =>
      rw [List.getLast?_eq_none_iff] at hother
      subst hother
      exact absurd ((hmem x).mp hx) List.not_mem_nil
    | some y =>
      have hy := (hmem y).mpr (List.mem_of_getLast? hother)
      rw [honce x hx y hy]

namespace IdSpace

variable {α : Type} {space : IdSpace α}

theorem mem_filter_id {entries : List α} {entry : α} {id : Nat} :
    entry ∈ (entries.filter fun entry => space.id entry = id) ↔
      entry ∈ entries ∧ space.id entry = id := by
  rw [List.mem_filter, decide_eq_true_iff]

theorem last?_congr {outcomes others : List (Except Error Record)} {id : Nat}
    (hmem : ∀ entry, space.id entry = id →
      (entry ∈ space.decoded outcomes ↔ entry ∈ space.decoded others))
    (honce : ∀ entry ∈ space.decoded outcomes, ∀ entry' ∈ space.decoded outcomes,
      space.id entry = space.id entry' → entry = entry') :
    space.last? outcomes id = space.last? others id := by
  refine getLast?_eq_of_mem_iff (fun entry => ?_) fun entry hentry entry' hentry' => ?_
  · rw [mem_filter_id, mem_filter_id]
    exact and_congr_left (hmem entry)
  · rw [mem_filter_id] at hentry hentry'
    exact honce entry hentry.1 entry' hentry'.1 (hentry.2.trans hentry'.2.symm)

/-- What each table gives after some units: what was decoded last, or what it gave at first. -/
theorem find?_setsAfter (sets : ParamSets) (units : List NalUnit) (id : Nat) :
    (space.table (setsAfter true sets units)).find? id =
      (space.last? (outcomes true sets units) id).or ((space.table sets).find? id) := by
  rw [table_setsAfter, Table.find?_foldl_store]
  rfl

theorem decoded_sequence (update : Bool) (sets : ParamSets) (units : List NalUnit) :
    sequence.decoded (outcomes update sets units) = units.filterMap NalUnit.sequence? := by
  induction units generalizing sets with
  | nil => rfl
  | cons unit units ih =>
    have hrest := ih (setsAfterUnit update sets unit)
    unfold decoded at hrest ⊢
    show List.filterMap _ (Record.ofUnit sets unit :: outcomes update _ units) = _
    rw [List.filterMap_cons, List.filterMap_cons, Record.entry_ofUnit, hrest]

end IdSpace

/-! ## Identifiers that come once -/

/-- The kind and the identifier of a parameter set. -/
def Record.key? : Record → Option (ParamSetKind × Nat)
  | .sps sequence => some (.sps, sequence.id)
  | .pps picture => some (.pps, picture.id)
  | .subsetSps subset => some (.subsetSps, subset.id)
  | _ => none

/-- The kinds and identifiers of the parameter sets among what units hold. -/
def decodedKeys (outcomes : List (Except Error Record)) : List (ParamSetKind × Nat) :=
  outcomes.filterMap fun outcome => outcome.toOption.bind Record.key?

namespace IdSpace

variable {α : Type} {space : IdSpace α}

/-- The parameter sets of a space are of a kind. -/
def OfKind (space : IdSpace α) (kind : ParamSetKind) : Prop :=
  ∀ record entry, space.entry? record = some entry → record.key? = some (kind, space.id entry)

theorem sequence_ofKind : sequence.OfKind .sps := by
  intro record entry h
  cases record <;> cases h
  rfl

theorem picture_ofKind : picture.OfKind .pps := by
  intro record entry h
  cases record <;> cases h
  rfl

theorem subset_ofKind : subset.OfKind .subsetSps := by
  intro record entry h
  cases record <;> cases h
  rfl

theorem key_of_entry {kind : ParamSetKind} (hkind : space.OfKind kind)
    {outcome : Except Error Record} {entry : α} (h : outcome.toOption.bind space.entry? = some entry) :
    outcome.toOption.bind Record.key? = some (kind, space.id entry) := by
  obtain ⟨record, hrecord, hentry⟩ := Option.bind_eq_some_iff.mp h
  rw [hrecord]
  exact hkind record entry hentry

theorem key_decoded_sublist {kind : ParamSetKind} (hkind : space.OfKind kind)
    (outcomes : List (Except Error Record)) :
    ((space.decoded outcomes).map fun entry => (kind, space.id entry)).Sublist
      (decodedKeys outcomes) := by
  unfold decoded decodedKeys
  induction outcomes with
  | nil => exact List.Sublist.refl []
  | cons outcome outcomes ih =>
    rw [List.filterMap_cons, List.filterMap_cons]
    cases hentry : outcome.toOption.bind space.entry? with
    | some entry =>
      rw [key_of_entry hkind hentry]
      exact ih.cons_cons _
    | none =>
      -- a parameter set of another kind has a key, too
      cases outcome.toOption.bind Record.key? with
      | none => exact ih
      | some key => exact ih.cons key

/-- Where no identifier of a kind comes twice, no two parameter sets of this kind share one. -/
theorem eq_of_id_eq {kind : ParamSetKind} (hkind : space.OfKind kind)
    {outcomes : List (Except Error Record)} (hkeys : (decodedKeys outcomes).Nodup)
    {entry entry' : α} (h : entry ∈ space.decoded outcomes)
    (h' : entry' ∈ space.decoded outcomes) (hid : space.id entry = space.id entry') :
    entry = entry' :=
  List.inj_on_of_nodup_map (hkeys.sublist (key_decoded_sublist hkind outcomes)) h h'
    (by rw [hid])

end IdSpace

/-! ## Two orders -/

section Orders

variable {ι : Type} [DecidableEq ι] {unit : ι → NalUnit} {first second : List ι}
  {update : Bool} {sets : ParamSets}

/-- Two orders of some units, in which each unit stands on the same side of every unit that holds a
sequence which it asks for. -/
structure SidesKept (unit : ι → NalUnit) (first second : List ι) : Prop where
  nodup : first.Nodup
  perm : first.Perm second
  side : ∀ asking ∈ first, ∀ holding ∈ first, ∀ spsId, (unit asking).AsksFor spsId →
    (unit holding).HoldsSequence spsId →
      (Precedes first holding asking ↔ Precedes second holding asking)

theorem mem_sequences_before {order : List ι} (hnodup : order.Nodup) {name : ι}
    (hname : name ∈ order) {sps : SeqParameterSet} :
    sps ∈ IdSpace.sequence.decoded (outcomes update sets ((namesBefore order name).map unit)) ↔
      ∃ holding, Precedes order holding name ∧ (unit holding).sequence? = some sps := by
  rw [IdSpace.decoded_sequence, List.filterMap_map, List.mem_filterMap]
  simp only [mem_namesBefore_iff hnodup hname, Function.comp_apply]

/-- A unit finds the same sequence in both orders where it asks for one. -/
theorem sps?_setsBefore (hkept : SidesKept unit first second)
    (hkeys : (decodedKeys (outcomes update sets (first.map unit))).Nodup) {name : ι}
    (hname : name ∈ first) {spsId : Nat} (hasks : (unit name).AsksFor spsId) :
    (setsBefore update sets unit first name).sps? spsId =
      (setsBefore update sets unit second name).sps? spsId := by
  unfold setsBefore
  cases update with
  | false =>
    -- without updates, all units are decoded against the first sets
    rw [setsAfter_false, setsAfter_false]
  | true =>
    have hname' : name ∈ second := hkept.perm.mem_iff.mp hname
    have hnodup' : second.Nodup := hkept.perm.nodup_iff.mp hkept.nodup
    show (IdSpace.sequence.table _).find? spsId = (IdSpace.sequence.table _).find? spsId
    rw [IdSpace.find?_setsAfter, IdSpace.find?_setsAfter, IdSpace.last?_congr]
    · -- the same units that hold the sequence come before
      intro sps hid
      rw [mem_sequences_before hkept.nodup hname, mem_sequences_before hnodup' hname']
      refine exists_congr fun holding => and_congr_left fun hsps => ?_
      have hholds : (unit holding).HoldsSequence spsId := ⟨sps, hsps, hid⟩
      constructor
      · intro hbefore
        exact (hkept.side name hname holding (hbefore.subset List.mem_cons_self) spsId hasks
          hholds).mp hbefore
      · intro hbefore
        have hholding := hkept.perm.mem_iff.mpr (hbefore.subset List.mem_cons_self)
        exact (hkept.side name hname holding hholding spsId hasks hholds).mpr hbefore
    · -- what came before is among what comes at all
      have hwhole : ∀ sps ∈ IdSpace.sequence.decoded
          (outcomes true sets ((namesBefore first name).map unit)),
          sps ∈ IdSpace.sequence.decoded (outcomes true sets (first.map unit)) := by
        intro sps hmem
        rw [IdSpace.decoded_sequence] at hmem ⊢
        exact (((List.takeWhile_sublist _).map unit).filterMap _).subset hmem
      intro sps hsps sps' hsps' hid
      exact IdSpace.eq_of_id_eq IdSpace.sequence_ofKind hkeys (hwhole sps hsps)
        (hwhole sps' hsps') hid

theorem outcomeIn_eq (hkept : SidesKept unit first second)
    (hstore : ∀ name ∈ first, (unit name).MayStore)
    (hkeys : (decodedKeys (outcomes update sets (first.map unit))).Nodup) {name : ι}
    (hname : name ∈ first) :
    outcomeIn update sets unit first name = outcomeIn update sets unit second name :=
  Record.ofUnit_congr (hstore name hname) fun _ hasks => sps?_setsBefore hkept hkeys hname hasks

/-- What the units hold in the second order is what they hold in the first, in this order. -/
theorem outcomes_second (hkept : SidesKept unit first second)
    (hstore : ∀ name ∈ first, (unit name).MayStore)
    (hkeys : (decodedKeys (outcomes update sets (first.map unit))).Nodup) :
    outcomes update sets (second.map unit) = second.map (outcomeIn update sets unit first) := by
  rw [outcomes_map update sets unit (hkept.perm.nodup_iff.mp hkept.nodup)]
  refine List.map_congr_left fun name hname => ?_
  exact (outcomeIn_eq hkept hstore hkeys (hkept.perm.mem_iff.mpr hname)).symm

theorem outcomes_perm (hkept : SidesKept unit first second)
    (hstore : ∀ name ∈ first, (unit name).MayStore)
    (hkeys : (decodedKeys (outcomes update sets (first.map unit))).Nodup) :
    (outcomes update sets (first.map unit)).Perm (outcomes update sets (second.map unit)) := by
  rw [outcomes_second hkept hstore hkeys, outcomes_map update sets unit hkept.nodup]
  exact hkept.perm.map _

/-! ## Parameter sets that answer alike -/

theorem IdSpace.find?_setsAfter_of_perm {α : Type} {space : IdSpace α} {kind : ParamSetKind}
    (hkind : space.OfKind kind) {units others : List NalUnit}
    (hperm : (outcomes true sets units).Perm (outcomes true sets others))
    (hkeys : (decodedKeys (outcomes true sets units)).Nodup) (id : Nat) :
    (space.table (setsAfter true sets units)).find? id =
      (space.table (setsAfter true sets others)).find? id := by
  rw [find?_setsAfter, find?_setsAfter, last?_congr]
  · intro entry _
    exact (hperm.filterMap _).mem_iff
  · intro entry hentry entry' hentry' hid
    exact eq_of_id_eq hkind hkeys hentry hentry' hid

namespace ParamSets

/-- Parameter sets that give the same answers, whatever key is looked up. -/
structure AnswersAlike (sets other : ParamSets) : Prop where
  sps : ∀ key, sets.getSps key = other.getSps key
  pps : ∀ key, sets.getPps key = other.getPps key
  subsetSps : ∀ key, sets.getSubsetSps key = other.getSubsetSps key

theorem findIn_congr {α : Type} {table other : Table α} (h : ∀ id, table.find? id = other.find? id)
    (kind : ParamSetKind) : findIn kind table = findIn kind other := by
  funext id
  unfold findIn
  rw [h]

theorem answersAlike_of_find? {sets other : ParamSets}
    (hsps : ∀ id, sets.sps.find? id = other.sps.find? id)
    (hpps : ∀ id, sets.pps.find? id = other.pps.find? id)
    (hsubset : ∀ id, sets.subsetSps.find? id = other.subsetSps.find? id) :
    sets.AnswersAlike other where
  sps key := by
    unfold getSps
    rw [findIn_congr hsps]
  pps key := by
    unfold getPps
    rw [findIn_congr hpps]
  subsetSps key := by
    unfold getSubsetSps
    rw [findIn_congr hsubset]

end ParamSets

theorem answersAlike_setsAfter {units others : List NalUnit}
    (hperm : (outcomes update sets units).Perm (outcomes update sets others))
    (hkeys : (decodedKeys (outcomes update sets units)).Nodup) :
    (setsAfter update sets units).AnswersAlike (setsAfter update sets others) := by
  cases update with
  | false =>
    rw [setsAfter_false, setsAfter_false]
    exact ⟨fun _ => rfl, fun _ => rfl, fun _ => rfl⟩
  | true =>
    exact ParamSets.answersAlike_of_find?
      (IdSpace.find?_setsAfter_of_perm IdSpace.sequence_ofKind hperm hkeys)
      (IdSpace.find?_setsAfter_of_perm IdSpace.picture_ofKind hperm hkeys)
      (IdSpace.find?_setsAfter_of_perm IdSpace.subset_ofKind hperm hkeys)

/-! ## Analyses in two orders -/

namespace Analyzer

/-- Results of units that came in an order, where what came of a unit is known by its name. -/
def GivesEach (unit : ι → NalUnit) (outcome : ι → Except Error Record) (order : List ι)
    (results : List UnitResult) : Prop :=
  results.map UnitResult.unit = order.map unit ∧
    results.map UnitResult.outcome = order.map outcome

/-- Calls whose units are parameter sets come to their end. -/
theorem exists_analyzed_of_mayStore {analyzer : Analyzer} {calls : List Call} {units : List NalUnit}
    (hunits : (frameAll analyzer.framer calls).1 = units)
    (hstore : ∀ unit ∈ units, unit.MayStore) :
    ∃ results after, performAll calls analyzer = .ok results after ∧
      Analyzed analyzer units results after := by
  subst hunits
  have hchecked : ∀ unit ∈ (frameAll analyzer.framer calls).1, ∀ sets,
      CheckedOutcome (Record.ofUnit sets unit) :=
    fun unit hunit sets => Record.checked_ofUnit_of_mayStore (hstore unit hunit) sets
  obtain ⟨results, after, hrun, hdone, -⟩ :=
    stepwise_completes.performAll analyzer calls (checked_outcomes hchecked)
  exact ⟨results, after, hrun, hdone⟩

/-- **The order of parameter sets.** Some units, all parameter sets by their types, come in two
orders to an analyzer that may know others. If no kind and identifier is decoded twice, and each
picture parameter set with 8x8 scaling lists stays on the same side of the units that hold the
sequence which it names, then both analyses come to their end, each unit has the same record or
error in both, and the parameter sets that they leave answer alike. -/
theorem param_sets_order_independent (hkept : SidesKept unit first second)
    (hstore : ∀ name ∈ first, (unit name).MayStore) {analyzer : Analyzer}
    (hkeys : (decodedKeys
      (outcomes analyzer.updateSets analyzer.sets (first.map unit))).Nodup)
    {calls others : List Call} (hcalls : (frameAll analyzer.framer calls).1 = first.map unit)
    (hothers : (frameAll analyzer.framer others).1 = second.map unit) :
    ∃ outcome results after results' after',
      performAll calls analyzer = .ok results after ∧
      performAll others analyzer = .ok results' after' ∧
      GivesEach unit outcome first results ∧ GivesEach unit outcome second results' ∧
      after.sets.AnswersAlike after'.sets := by
  have hstore' : ∀ name ∈ second, (unit name).MayStore :=
    fun name hname => hstore name (hkept.perm.mem_iff.mpr hname)
  obtain ⟨results, after, hrun, hdone⟩ :=
    exists_analyzed_of_mayStore hcalls (List.forall_mem_map.mpr hstore)
  obtain ⟨results', after', hrun', hdone'⟩ :=
    exists_analyzed_of_mayStore hothers (List.forall_mem_map.mpr hstore')
  refine ⟨outcomeIn analyzer.updateSets analyzer.sets unit first, results, after, results',
    after', hrun, hrun', ⟨hdone.taken, ?_⟩, ⟨hdone'.taken, ?_⟩, ?_⟩
  · rw [hdone.decoded, outcomes_map _ _ _ hkept.nodup]
  · rw [hdone'.decoded, outcomes_second hkept hstore hkeys]
  · rw [hdone.sets, hdone'.sets]
    exact answersAlike_setsAfter (outcomes_perm hkept hstore hkeys) hkeys

/-! ## Six units in two orders -/

/-- A 4:4:4 sequence, a picture parameter set with twelve scaling lists for it, another sequence, a
picture parameter set without lists that names this one, a subset sequence parameter set, and a
sequence that breaks off. -/
def mixedSets : Fin 6 → NalUnit
  | 0 => { bytes := [0x67, 0xf4, 0x00, 0x1e, 0x91, 0x9e, 0xc1] }
  | 1 => { bytes := [0x68, 0xce, 0x38, 0xc0, 0x03] }
  | 2 => { bytes := [0x67, 0x42, 0x00, 0x0a, 0x5e, 0xe2] }
  | 3 => { bytes := [0x68, 0x48, 0xe3, 0x88] }
  | 4 => { bytes := [0x6f, 0x42, 0x00, 0x0a, 0xfb, 0x84] }
  | 5 => { bytes := [0x67, 0x42, 0x00] }

theorem eq_of_asksFor_mixedSets {name : Fin 6} {spsId : Nat}
    (h : (mixedSets name).AsksFor spsId) : name = 1 ∧ spsId = 0 := by
  have hread : PicParameterSet.ofUnit (fun _ => none) (mixedSets name) =
      .error (.unresolved "seq_parameter_set_id" spsId) := PicParameterSet.ofUnit_unresolved h rfl
  have hname : name = 1 := by
    have hothers : ∀ name, name ≠ 1 → (mixedSets name).type? = some .picParameterSet →
        (PicParameterSet.ofUnit (fun _ => none) (mixedSets name)).isOk = true := by decide +kernel
    by_contra hne
    have hok := hothers name hne h.1
    rw [hread] at hok
    cases hok
  subst hname
  have hfails : PicParameterSet.ofUnit (fun _ => none) (mixedSets 1) =
      .error (.unresolved "seq_parameter_set_id" (0 : Nat)) := rfl
  rw [hfails] at hread
  exact ⟨rfl, (Error.eq_of_unresolved_eq (Except.error.inj hread)).symm⟩

theorem sidesKept_mixedSets : SidesKept mixedSets [0, 1, 2, 3, 4, 5] [5, 4, 3, 2, 0, 1] where
  nodup := by decide
  perm := by decide
  side := by
    intro asking _ holding _ spsId hasks hholds
    obtain ⟨rfl, rfl⟩ := eq_of_asksFor_mixedSets hasks
    obtain ⟨sps, hsps, hid⟩ := hholds
    have honly : ∀ name, (mixedSets name).sequence?.map SeqParameterSet.id = some 0 → name = 0 := by
      decide +kernel
    obtain rfl := honly holding (by rw [hsps, Option.map_some, hid])
    decide

/-- All but the first two units change places with others, and the picture parameter set with the
scaling lists stays behind its sequence. -/
theorem param_sets_order_independent_mixedSets :
    SidesKept mixedSets [0, 1, 2, 3, 4, 5] [5, 4, 3, 2, 0, 1] ∧
    (∀ name ∈ [0, 1, 2, 3, 4, 5], (mixedSets name).MayStore) ∧
    (decodedKeys (outcomes true {} ([0, 1, 2, 3, 4, 5].map mixedSets))).Nodup ∧
    ∃ outcome results after results' after',
      performAll [.units ([0, 1, 2, 3, 4, 5].map mixedSets)] {} = .ok results after ∧
      performAll [.units ([5, 4, 3, 2, 0, 1].map mixedSets)] {} = .ok results' after' ∧
      GivesEach mixedSets outcome [0, 1, 2, 3, 4, 5] results ∧
      GivesEach mixedSets outcome [5, 4, 3, 2, 0, 1] results' ∧
      after.sets.AnswersAlike after'.sets := by
  have hstore : ∀ name ∈ [0, 1, 2, 3, 4, 5], (mixedSets name).MayStore := by decide
  have hkeys : (decodedKeys (outcomes true {} ([0, 1, 2, 3, 4, 5].map mixedSets))).Nodup := by
    decide +kernel
  exact ⟨sidesKept_mixedSets, hstore, hkeys,
    @param_sets_order_independent _ _ _ _ _ sidesKept_mixedSets hstore {} hkeys _ _ rfl rfl⟩

/-- A picture parameter set with 8x8 scaling lists cannot be decoded before its sequence. -/
example : (outcomes true {} [{ bytes := [0x68, 0xce, 0x38, 0xc0, 0x03] },
    { bytes := [0x67, 0xf4, 0x00, 0x1e, 0x91, 0x9e, 0xc1] }]).map Except.isOk = [false, true] := by
  decide +kernel

end Analyzer

end Orders

end H264
