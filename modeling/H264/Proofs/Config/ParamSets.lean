import H264.Proofs.Analysis.Run
import H264.Proofs.Config.Layout

/-!
# The parameter sets of a decoder configuration record

A record's entries can be decoded on their own, or analysed as units of a stream. Both give the same
parameter sets or the same error, but for one check: only an analysis looks at the first bit of a
unit, which has to be zero. **The two agree where every header is legal**; where one is not, the
analysis has an error, and the record's own decoding can succeed: `param_sets_agree_iff`.
-/

namespace H264

/-! ## Units one by one -/

/-- A unit whose header has the zero bit that it has to have. -/
def NalUnit.HasLegalHeader (unit : NalUnit) : Prop :=
  ∃ header, unit.header = .ok header ∧ header.forbiddenZeroBit = false

theorem NalUnit.hasLegalHeader_iff {unit : NalUnit} :
    unit.HasLegalHeader ↔ ∃ header, unit.checkedHeader = .ok header := by
  unfold HasLegalHeader checkedHeader
  cases unit.header with
  | error error =>
    constructor
    · rintro ⟨header, hheader, -⟩
      cases hheader
    · rintro ⟨header, hheader⟩
      cases hheader
  | ok header =>
    rw [ok_bind]
    cases hbit : header.forbiddenZeroBit with
    | false => exact ⟨fun _ => ⟨header, rfl⟩, fun _ => ⟨header, rfl, hbit⟩⟩
    | true =>
      constructor
      · rintro ⟨found, hfound, hzero⟩
        obtain rfl := Except.ok.inj hfound
        rw [hbit] at hzero
        cases hzero
      · rintro ⟨found, hfound⟩
        cases hfound

/-- The sets with what a unit holds stored. -/
def ParamSets.storeUnit (sets : ParamSets) (unit : NalUnit) : Except Error ParamSets := do
  return sets.storeRecord (← Record.ofUnit sets unit)

/-- The first error among some outcomes. -/
def firstError? : List (Except Error Record) → Option Error
  | [] => none
  | .ok _ :: outcomes => firstError? outcomes
  | .error error :: _ => some error

theorem firstError?_eq_none_iff (outcomes : List (Except Error Record)) :
    firstError? outcomes = none ↔ ∀ outcome ∈ outcomes, ∃ record, outcome = .ok record := by
  induction outcomes with
  | nil =>
    constructor
    · intro _ outcome hmem
      cases hmem
    · intro _
      rfl
  | cons outcome outcomes ih =>
    rw [List.forall_mem_cons]
    cases outcome with
    | ok record =>
      show firstError? outcomes = none ↔ _
      rw [ih]
      exact ⟨fun h => ⟨⟨record, rfl⟩, h⟩, fun h => h.2⟩
    | error error =>
      constructor
      · intro h
        cases h
      · rintro ⟨⟨record, hrecord⟩, -⟩
        cases hrecord

theorem checked_outcomes {units : List NalUnit}
    (h : ∀ unit ∈ units, ∀ sets, CheckedOutcome (Record.ofUnit sets unit)) {update : Bool}
    {sets : ParamSets} : ∀ outcome ∈ outcomes update sets units, CheckedOutcome outcome := by
  induction units generalizing sets with
  | nil =>
    intro outcome hmem
    cases hmem
  | cons unit units ih =>
    rw [List.forall_mem_cons] at h
    show ∀ outcome ∈ Record.ofUnit sets unit :: outcomes update _ units, _
    rw [List.forall_mem_cons]
    exact ⟨h.1 sets, ih h.2⟩

namespace ParamSets

variable {sets after : ParamSets} {unit : NalUnit} {units : List NalUnit}

/-- Storing units one by one ends at the first error of an analysis, or with its parameter sets. -/
theorem foldlM_storeUnit (sets : ParamSets) (units : List NalUnit) :
    units.foldlM storeUnit sets =
      match firstError? (outcomes true sets units) with
      | none => .ok (setsAfter true sets units)
      | some error => .error error := by
  induction units generalizing sets with
  | nil => rfl
  | cons unit units ih =>
    rw [List.foldlM_cons]
    cases hrecord : Record.ofUnit sets unit with
    | ok record =>
      have hstore : storeUnit sets unit = .ok (sets.storeRecord record) := by
        rw [storeUnit, hrecord]
        rfl
      have hafter : setsAfterUnit true sets unit = sets.storeRecord record := by
        rw [setsAfterUnit, hrecord]
        rfl
      show _ = match firstError? (Record.ofUnit sets unit :: outcomes true _ units) with
        | none => Except.ok (setsAfter true (setsAfterUnit true sets unit) units)
        | some error => .error error
      rw [hstore, ok_bind, ih, hrecord, hafter]
      rfl
    | error error =>
      have hstore : storeUnit sets unit = .error error := by
        rw [storeUnit, hrecord]
        rfl
      rw [hstore, outcomes, hrecord]
      rfl

theorem hasLegalHeader_of_storeUnit (h : storeUnit sets unit = .ok after) :
    unit.HasLegalHeader := by
  obtain ⟨record, hrecord, -⟩ := exists_of_bind_eq_ok h
  obtain ⟨header, hheader, -⟩ := exists_of_bind_eq_ok hrecord
  exact NalUnit.hasLegalHeader_iff.mpr ⟨header, hheader⟩

theorem hasLegalHeader_of_foldlM (h : units.foldlM storeUnit sets = .ok after) :
    ∀ unit ∈ units, unit.HasLegalHeader := by
  induction units generalizing sets with
  | nil =>
    intro unit hmem
    cases hmem
  | cons unit units ih =>
    rw [List.foldlM_cons] at h
    obtain ⟨mid, hfirst, hrest⟩ := exists_of_bind_eq_ok h
    rw [List.forall_mem_cons]
    exact ⟨hasLegalHeader_of_storeUnit hfirst, ih hrest⟩

/-- A unit with a legal header is decoded as its type says. -/
theorem storeUnit_of_ofUnitAs {type : UnitType} (htype : unit.type? = some type)
    (hlegal : unit.HasLegalHeader) {α : Type} {outcome : Except Error α} {wrap : α → Record}
    (h : Record.ofUnitAs type sets unit = (some ∘ wrap) <$> outcome) :
    storeUnit sets unit = (do return sets.storeRecord (wrap (← outcome))) := by
  obtain ⟨header, hheader⟩ := NalUnit.hasLegalHeader_iff.mp hlegal
  have hsame := NalUnit.type?_of_checkedHeader hheader
  rw [htype] at hsame
  obtain rfl := Option.some.inj hsame
  rw [storeUnit, Record.ofUnit, hheader, ok_bind, h]
  cases outcome with
  | ok value => rfl
  | error error => rfl

/-- Units of which each is stored in the same way are stored alike in a row. -/
theorem foldlM_storeUnit_eq {step : ParamSets → NalUnit → Except Error ParamSets}
    (h : ∀ unit ∈ units, ∀ sets, storeUnit sets unit = step sets unit) (sets : ParamSets) :
    units.foldlM storeUnit sets = units.foldlM step sets := by
  induction units generalizing sets with
  | nil => rfl
  | cons unit units ih =>
    rw [List.forall_mem_cons] at h
    rw [List.foldlM_cons, List.foldlM_cons, h.1 sets]
    cases step sets unit with
    | error error => rfl
    | ok mid => exact ih h.2 mid

end ParamSets

/-! ## The two ways -/

namespace DecoderConfig

open Analyzer

variable {data : Bytes} {config : DecoderConfig}

/-- The entries of parameter sets, in order. -/
def setUnits (config : DecoderConfig) : List NalUnit :=
  config.sps ++ config.pps

theorem type?_of_mem_sps (h : ofBytes data = .ok config) {unit : NalUnit}
    (hmem : unit ∈ config.sps) : unit.type? = some .seqParameterSet := by
  obtain ⟨layout, -, rfl⟩ := exists_layout h
  exact type?_of_mem_unitsFrom hmem

theorem type?_of_mem_pps (h : ofBytes data = .ok config) {unit : NalUnit}
    (hmem : unit ∈ config.pps) : unit.type? = some .picParameterSet := by
  obtain ⟨layout, -, rfl⟩ := exists_layout h
  exact type?_of_mem_unitsFrom hmem

theorem ofUnits_setUnits (config : DecoderConfig) :
    ParamSets.ofUnits config.setUnits =
      (do config.pps.foldlM ParamSets.storeUnit (← config.sps.foldlM ParamSets.storeUnit {})) :=
  List.foldlM_append

/-- With legal headers, the entries give what they give as units of a stream. -/
theorem paramSets_eq_ofUnits (h : ofBytes data = .ok config)
    (hlegal : ∀ unit ∈ config.setUnits, unit.HasLegalHeader) :
    config.paramSets = ParamSets.ofUnits config.setUnits := by
  have hsps : ∀ unit ∈ config.sps, ∀ sets, ParamSets.storeUnit sets unit =
      (do return sets.storeSps (← SeqParameterSet.ofUnit unit)) := by
    intro unit hmem sets
    exact ParamSets.storeUnit_of_ofUnitAs (type?_of_mem_sps h hmem)
      (hlegal unit (List.mem_append_left _ hmem)) rfl
  have hpps : ∀ unit ∈ config.pps, ∀ sets, ParamSets.storeUnit sets unit =
      (do return sets.storePps (← PicParameterSet.ofUnit sets.sps? unit)) := by
    intro unit hmem sets
    exact ParamSets.storeUnit_of_ofUnitAs (type?_of_mem_pps h hmem)
      (hlegal unit (List.mem_append_right _ hmem)) rfl
  rw [ofUnits_setUnits, ParamSets.foldlM_storeUnit_eq hsps]
  show (_ >>= fun sets => _) = (_ >>= fun sets => _)
  congr 1
  funext sets
  exact (ParamSets.foldlM_storeUnit_eq hpps sets).symm

/-- Analysing the entries comes to its end. -/
theorem exists_analyzed_setUnits (h : ofBytes data = .ok config) :
    ∃ results after, performAll [.units config.sps, .units config.pps] {} = .ok results after ∧
      Analyzed {} config.setUnits results after := by
  -- only a unit with a slice header could stop it, and no entry has one
  have hplain : ∀ unit ∈ config.setUnits, ∀ sets, CheckedOutcome (Record.ofUnit sets unit) := by
    intro unit hmem sets
    refine .bind unit.checked_checkedHeader fun header hheader => .bind ?_ fun record _ => ?_
    · have htype := NalUnit.type?_of_checkedHeader hheader
      rcases List.mem_append.mp hmem with hmem | hmem
      · rw [type?_of_mem_sps h hmem] at htype
        exact Record.checked_ofUnitAs (Option.some.inj htype ▸ rfl)
      · rw [type?_of_mem_pps h hmem] at htype
        exact Record.checked_ofUnitAs (Option.some.inj htype ▸ rfl)
    · cases record with
      | some record => exact .ok record
      | none => exact .ok _
  have hunits : (frameAll {} [.units config.sps, .units config.pps]).1 = config.setUnits := by
    show config.sps ++ (config.pps ++ []) = _
    rw [List.append_nil]
    rfl
  obtain ⟨results, after, hrun, hdone, -⟩ := stepwise_completes.performAll {}
    [.units config.sps, .units config.pps] (hunits ▸ checked_outcomes hplain)
  exact ⟨results, after, hrun, hunits ▸ hdone⟩

/-- What a record's own decoding gives and what an analysis of its entries gives are the same: both
have no error, and then the same parameter sets, or both have the same error first. -/
structure WaysAgree (config : DecoderConfig) (results : List UnitResult) (after : Analyzer) :
    Prop where
  succeed_iff : (∃ sets, config.paramSets = .ok sets) ↔
    ∀ result ∈ results, ∃ record, result.outcome = .ok record
  same_sets : ∀ sets, config.paramSets = .ok sets →
    (∀ result ∈ results, ∃ record, result.outcome = .ok record) → after.sets = sets
  same_error : ∀ error, config.paramSets = .error error →
    firstError? (results.map UnitResult.outcome) = some error

/-- An analysis that came to its end has the parameter sets that its units give, or the error. -/
theorem ofUnits_of_analyzed {units : List NalUnit} {results : List UnitResult} {after : Analyzer}
    (hdone : Analyzed {} units results after) :
    ParamSets.ofUnits units =
      match firstError? (results.map UnitResult.outcome) with
      | none => .ok after.sets
      | some error => .error error := by
  rw [hdone.decoded, hdone.sets]
  exact ParamSets.foldlM_storeUnit {} units

theorem no_error_iff (results : List UnitResult) :
    (∀ result ∈ results, ∃ record, result.outcome = .ok record) ↔
      firstError? (results.map UnitResult.outcome) = none := by
  rw [firstError?_eq_none_iff, List.forall_mem_map]

theorem waysAgree_iff {results : List UnitResult} {after : Analyzer}
    (hdone : Analyzed {} config.setUnits results after) :
    config.WaysAgree results after ↔ config.paramSets = ParamSets.ofUnits config.setUnits := by
  have hunits := ofUnits_of_analyzed hdone
  cases hfound : firstError? (results.map UnitResult.outcome) with
  | none =>
    rw [hfound] at hunits
    have hclear := (no_error_iff results).mpr hfound
    rw [hunits]
    constructor
    · intro hagree
      obtain ⟨sets, hsets⟩ := hagree.succeed_iff.mpr hclear
      rw [hsets, hagree.same_sets sets hsets hclear]
    · intro hsets
      refine ⟨⟨fun _ => hclear, fun _ => ⟨_, hsets⟩⟩, ?_, ?_⟩
      · intro sets hok _
        exact Except.ok.inj (hsets.symm.trans hok)
      · intro error herror
        rw [hsets] at herror
        cases herror
  | some found =>
    rw [hfound] at hunits
    have hbroken : ¬∀ result ∈ results, ∃ record, result.outcome = .ok record := by
      rw [no_error_iff, hfound]
      exact Option.some_ne_none found
    rw [hunits]
    constructor
    · intro hagree
      cases hsets : config.paramSets with
      | ok sets => exact absurd (hagree.succeed_iff.mp ⟨sets, hsets⟩) hbroken
      | error error =>
        have hfirst := hagree.same_error error hsets
        rw [hfound] at hfirst
        rw [Option.some.inj hfirst]
    · intro herror
      refine ⟨⟨?_, fun h => absurd h hbroken⟩, fun _ _ h => absurd h hbroken, ?_⟩
      · rintro ⟨sets, hsets⟩
        rw [herror] at hsets
        cases hsets
      · intro error hsets
        rw [hfound, Except.error.inj (herror.symm.trans hsets)]

/-- **The two ways to the parameter sets of a record** agree if every header is legal, and just if
the record's own decoding gives what its entries give with their headers checked. An analysis
without an error has the record's own sets, and an illegal header is always an error of it. -/
theorem param_sets_agree_iff (h : ofBytes data = .ok config) :
    ∃ results after, performAll [.units config.sps, .units config.pps] {} = .ok results after ∧
      results.map UnitResult.unit = config.setUnits ∧
      (config.WaysAgree results after ↔
        config.paramSets = ParamSets.ofUnits config.setUnits) ∧
      ((∀ unit ∈ config.setUnits, unit.HasLegalHeader) → config.WaysAgree results after) ∧
      ((∀ result ∈ results, ∃ record, result.outcome = .ok record) →
        config.paramSets = .ok after.sets) ∧
      ((∃ unit ∈ config.setUnits, ¬unit.HasLegalHeader) →
        ∃ error, firstError? (results.map UnitResult.outcome) = some error) := by
  obtain ⟨results, after, hrun, hdone⟩ := exists_analyzed_setUnits h
  have hunits := ofUnits_of_analyzed hdone
  have hagree := waysAgree_iff hdone
  refine ⟨results, after, hrun, hdone.taken, hagree, ?_, ?_, ?_⟩
  · intro hlegal
    exact hagree.mpr (paramSets_eq_ofUnits h hlegal)
  · intro hclear
    rw [(no_error_iff results).mp hclear] at hunits
    rw [paramSets_eq_ofUnits h (ParamSets.hasLegalHeader_of_foldlM hunits), hunits]
  · rintro ⟨unit, hmem, hillegal⟩
    cases hfound : firstError? (results.map UnitResult.outcome) with
    | some error => exact ⟨error, rfl⟩
    | none =>
      rw [hfound] at hunits
      exact absurd (ParamSets.hasLegalHeader_of_foldlM hunits unit hmem) hillegal

/-! ## A header with its first bit set -/

/-- A record of a sequence and a picture parameter set, with the header byte of the first left
open. -/
def layoutWithHeader (first : UInt8) (h : first.toNat % 32 = 7) : RecordLayout where
  profileIdc := 0x42
  compatibility := 0
  levelIdc := 0x0a
  lengthSize := 0xff
  spsCount := 0xe1
  sps := [⟨first, [0x42, 0x00, 0x0a, 0xf8, 0x41, 0xa2], h, Nat.lt_of_sub_eq_succ rfl⟩]
  ppsCount := 1
  pps := [⟨0x68, [0xce, 0x38, 0x80], rfl, Nat.lt_of_sub_eq_succ rfl⟩]
  extension := none
  tail := []
  spsCount_eq := List.length_singleton.symm
  ppsCount_eq := List.length_singleton.symm
  extended := fun h => absurd rfl h
  unextended := fun _ _ => rfl

theorem exists_of_isOk {α : Type} {outcome : Except Error α} (h : outcome.isOk = true) :
    ∃ value, outcome = .ok value := by
  cases outcome with
  | ok value => exact ⟨value, rfl⟩
  | error error => cases h

/-- With the bits zero, both ways give the two parameter sets. -/
theorem param_sets_agree_iff_zeroBits :
    ∃ results after, performAll [.units (layoutWithHeader 0x67 rfl).config.sps,
        .units (layoutWithHeader 0x67 rfl).config.pps] {} = .ok results after ∧
      results.length = 2 ∧ (layoutWithHeader 0x67 rfl).config.WaysAgree results after ∧
      (layoutWithHeader 0x67 rfl).config.paramSets = .ok after.sets := by
  obtain ⟨results, after, hrun, htaken, -, hagree, hsets, -⟩ :=
    param_sets_agree_iff (ofBytes_bytes (layoutWithHeader 0x67 rfl))
  have hlegal : ∀ unit ∈ (layoutWithHeader 0x67 rfl).config.setUnits, unit.HasLegalHeader := by
    intro unit hmem
    rcases List.mem_cons.mp hmem with rfl | hmem
    · exact ⟨_, rfl, rfl⟩
    · rw [List.mem_singleton.mp hmem]
      exact ⟨_, rfl, rfl⟩
  have hboth := hagree hlegal
  refine ⟨results, after, hrun, ?_, hboth, ?_⟩
  · rw [← List.length_map UnitResult.unit, htaken]
    rfl
  · exact hsets (hboth.succeed_iff.mp (exists_of_isOk (by decide +kernel)))

/-- The two ways do not always agree: with the first bit of a header set, only the analysis has an
error. -/
theorem param_sets_can_disagree :
    ¬∀ (data : Bytes) (config : DecoderConfig), ofBytes data = .ok config → ∀ results after,
      performAll [.units config.sps, .units config.pps] {} = .ok results after →
      ((∃ sets, config.paramSets = .ok sets) ↔
        ∀ result ∈ results, ∃ record, result.outcome = .ok record) := by
  intro hclaim
  have hread := ofBytes_bytes (layoutWithHeader 0xe7 rfl)
  obtain ⟨results, after, hrun, hdone⟩ := exists_analyzed_setUnits hread
  have hclear := (hclaim _ _ hread results after hrun).mp
    (exists_of_isOk (by decide +kernel))
  have hunits := ofUnits_of_analyzed hdone
  rw [(no_error_iff results).mp hclear] at hunits
  obtain ⟨header, hheader, hzero⟩ :=
    ParamSets.hasLegalHeader_of_foldlM hunits _ List.mem_cons_self
  cases hheader
  cases hzero

end DecoderConfig

end H264
