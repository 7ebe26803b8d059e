import H264.Proofs.Analysis.Calls
import H264.Proofs.Analysis.Decoded

/-!
# Runs of an analysis

A unit that cannot be decoded has its error in its result and in the log (`Analyzed.captured`), and
the analysis goes on. One kind of unit ends it: a slice with a change cycle that is wider than any
field.

* `setsAfter` and `outcomes` — what units give, each decoded against the sets before it;
* `Analyzed` — an analysis that came to its end;
* **`analysis_stops_iff_overwide`** — an analysis is stopped just by an overwide slice.
-/

namespace H264

open Framing

/-! ## What units give -/

/-- The parameter sets after a unit, where they are kept current. -/
def setsAfterUnit (update : Bool) (sets : ParamSets) (unit : NalUnit) : ParamSets :=
  match Record.ofUnit sets unit with
  | .ok record => if update then sets.storeRecord record else sets
  | .error _ => sets

/-- The parameter sets after some units. -/
def setsAfter (update : Bool) : ParamSets → List NalUnit → ParamSets :=
  List.foldl (setsAfterUnit update)

/-- What units hold, each decoded against the parameter sets before it. -/
def outcomes (update : Bool) : ParamSets → List NalUnit → List (Except Error Record)
  | _, [] => []
  | sets, unit :: units =>
    Record.ofUnit sets unit :: outcomes update (setsAfterUnit update sets unit) units

/-- One of some units is a slice with a change cycle of a width that no field has. -/
def MeetsOverwide (update : Bool) (sets : ParamSets) (units : List NalUnit) (width : Nat) : Prop :=
  ∃ before unit after, units = before ++ unit :: after ∧
    Overwide (setsAfter update sets before) unit width

theorem decoded_setsAfterUnit {update : Bool} {sets : ParamSets} (h : sets.Decoded)
    (unit : NalUnit) : (setsAfterUnit update sets unit).Decoded := by
  unfold setsAfterUnit
  cases hrecord : Record.ofUnit sets unit with
  | error error => exact h
  | ok record =>
    cases update with
    | false => exact h
    | true => exact ParamSets.decoded_storeRecord h hrecord

theorem decoded_setsAfter {update : Bool} {sets : ParamSets} (h : sets.Decoded)
    (units : List NalUnit) : (setsAfter update sets units).Decoded := by
  induction units generalizing sets with
  | nil => exact h
  | cons unit units ih => exact ih (decoded_setsAfterUnit h unit)

theorem setsAfter_append (update : Bool) (sets : ParamSets) (front back : List NalUnit) :
    setsAfter update sets (front ++ back) =
      setsAfter update (setsAfter update sets front) back :=
  List.foldl_append

theorem outcomes_append (update : Bool) (sets : ParamSets) (front back : List NalUnit) :
    outcomes update sets (front ++ back) =
      outcomes update sets front ++ outcomes update (setsAfter update sets front) back := by
  induction front generalizing sets with
  | nil => rfl
  | cons unit front ih =>
    show Record.ofUnit sets unit :: outcomes update _ (front ++ back) =
      Record.ofUnit sets unit :: (outcomes update _ front ++ _)
    rw [ih]
    rfl

theorem not_meetsOverwide_nil {update : Bool} {sets : ParamSets} {width : Nat} :
    ¬MeetsOverwide update sets [] width := by
  rintro ⟨before, unit, after, hsplit, -⟩
  cases before with
  | nil => cases hsplit
  | cons => cases hsplit

theorem meetsOverwide_cons_iff {update : Bool} {sets : ParamSets} {unit : NalUnit}
    {units : List NalUnit} {width : Nat} :
    MeetsOverwide update sets (unit :: units) width ↔
      Overwide sets unit width ∨
        MeetsOverwide update (setsAfterUnit update sets unit) units width := by
  constructor
  · rintro ⟨before, wide, after, hsplit, hwide⟩
    cases before with
    | nil =>
      cases hsplit
      exact .inl hwide
    | cons first before =>
      cases hsplit
      exact .inr ⟨before, wide, after, rfl, hwide⟩
  · intro h
    rcases h with hwide | ⟨before, wide, after, rfl, hwide⟩
    · exact ⟨[], unit, units, rfl, hwide⟩
    · exact ⟨unit :: before, wide, after, rfl, hwide⟩

theorem meetsOverwide_append_iff {update : Bool} {sets : ParamSets} {front back : List NalUnit}
    {width : Nat} :
    MeetsOverwide update sets (front ++ back) width ↔
      MeetsOverwide update sets front width ∨
        MeetsOverwide update (setsAfter update sets front) back width := by
  induction front generalizing sets with
  | nil =>
    refine ⟨.inr, fun h => ?_⟩
    rcases h with h | h
    · exact absurd h not_meetsOverwide_nil
    · exact h
  | cons unit front ih =>
    rw [List.cons_append, meetsOverwide_cons_iff, meetsOverwide_cons_iff, ih, or_assoc]
    rfl

/-! ## Analyses that come to their end -/

namespace Analyzer

/-- An error is in the result of its unit, is one that a stream can cause, and is logged. -/
def Captured (result : UnitResult) (issues : IssueLog (Option Nat)) : Prop :=
  ∀ error, result.outcome = .error error → error.isBitstream = true ∧
    .ofError error result.index (result.unit.type?.map fun type => type.code) none ∈ issues

/-- An analysis of some units that came to its end. -/
structure Analyzed (before : Analyzer) (units : List NalUnit) (results : List UnitResult)
    (after : Analyzer) : Prop where
  taken : results.map UnitResult.unit = units
  decoded : results.map UnitResult.outcome = outcomes before.updateSets before.sets units
  sets : after.sets = setsAfter before.updateSets before.sets units
  updateSets : after.updateSets = before.updateSets
  issues : before.issues <+: after.issues
  captured : ∀ result ∈ results, Captured result after.issues

/-- What an action does that analyses some units: it comes to its end, or an overwide slice stops
it. -/
def Analyzes (action : Analyze (List UnitResult)) (before : Analyzer) (units : List NalUnit)
    (framer : Framer) : Prop :=
  match action before with
  | .ok results after => Analyzed before units results after ∧ after.framer = framer ∧
      ∀ width, ¬MeetsOverwide before.updateSets before.sets units width
  | .error error _ => ∃ width : Nat, error = .misuse (.readWidth width) ∧
      MeetsOverwide before.updateSets before.sets units width

theorem Analyzed.nil (analyzer : Analyzer) : Analyzed analyzer [] [] analyzer where
  taken := rfl
  decoded := rfl
  sets := rfl
  updateSets := rfl
  issues := List.prefix_rfl
  captured := by
    intro result hmem
    cases hmem

theorem Analyzed.append {before mid after : Analyzer} {front back : List NalUnit}
    {first second : List UnitResult} (hfirst : Analyzed before front first mid)
    (hsecond : Analyzed mid back second after) :
    Analyzed before (front ++ back) (first ++ second) after where
  taken := by rw [List.map_append, hfirst.taken, hsecond.taken]
  decoded := by
    rw [List.map_append, hfirst.decoded, hsecond.decoded, hfirst.updateSets, hfirst.sets,
      outcomes_append]
  sets := by rw [hsecond.sets, hfirst.updateSets, hfirst.sets, setsAfter_append]
  updateSets := by rw [hsecond.updateSets, hfirst.updateSets]
  issues := hfirst.issues.trans hsecond.issues
  captured := by
    intro result hmem
    rcases List.mem_append.mp hmem with hmem | hmem
    · intro error herror
      obtain ⟨hbitstream, hlogged⟩ := hfirst.captured result hmem error herror
      exact ⟨hbitstream, hsecond.issues.subset hlogged⟩
    · exact hsecond.captured result hmem

theorem Analyzed.log {before after : Analyzer} {units : List NalUnit} {results : List UnitResult}
    (h : Analyzed before units results after) (issue : Issue (Option Nat)) :
    Analyzed before units results (after.log issue) where
  taken := h.taken
  decoded := h.decoded
  sets := h.sets
  updateSets := h.updateSets
  issues := h.issues.trans (List.prefix_append _ _)
  captured := by
    intro result hmem error herror
    obtain ⟨hbitstream, hlogged⟩ := h.captured result hmem error herror
    exact ⟨hbitstream, List.mem_append_left _ hlogged⟩

theorem analyzes_both {first second : Analyze (List UnitResult)} {before : Analyzer}
    {front back : List NalUnit} {middle framer : Framer}
    (hfirst : Analyzes first before front middle)
    (hsecond : ∀ mid, mid.updateSets = before.updateSets → mid.framer = middle →
      mid.sets = setsAfter before.updateSets before.sets front → Analyzes second mid back framer) :
    Analyzes (both first second) before (front ++ back) framer := by
  unfold Analyzes at hfirst ⊢
  cases hrun : first before with
  | error error mid =>
    rw [hrun] at hfirst
    obtain ⟨width, herror, hwide⟩ := hfirst
    rw [both_of_error hrun]
    exact ⟨width, herror, meetsOverwide_append_iff.mpr (.inl hwide)⟩
  | ok results mid =>
    rw [hrun] at hfirst
    obtain ⟨hdone, hframer, hclear⟩ := hfirst
    -- the second action finds the parameter sets that the units of the first have left
    have hnext := hsecond mid hdone.updateSets hframer hdone.sets
    unfold Analyzes at hnext
    rw [hdone.updateSets, hdone.sets] at hnext
    rw [both_of_ok hrun]
    cases hlast : second mid with
    | error error after =>
      rw [hlast] at hnext
      obtain ⟨width, herror, hwide⟩ := hnext
      rw [map_of_error hlast]
      exact ⟨width, herror, meetsOverwide_append_iff.mpr (.inr hwide)⟩
    | ok more after =>
      rw [hlast] at hnext
      obtain ⟨hrest, hlastFramer, hrestClear⟩ := hnext
      rw [map_of_ok hlast]
      refine ⟨hdone.append hrest, hlastFramer, fun width h => ?_⟩
      rcases meetsOverwide_append_iff.mp h with h | h
      · exact hclear width h
      · exact hrestClear width h

/-! ## Steps -/

theorem analyzed_of_ok {before : Analyzer} {unit : NalUnit} {record : Record}
    (h : Record.ofUnit before.sets unit = .ok record) :
    Analyzed before [unit] [{ index := before.unitCount, unit, outcome := .ok record }]
      ((before.count unit).keep record) where
  taken := rfl
  decoded := by
    show [Except.ok record] = [Record.ofUnit before.sets unit]
    rw [h]
  sets := by
    rw [keep_eq]
    show _ = setsAfterUnit before.updateSets before.sets unit
    unfold setsAfterUnit
    rw [h]
    rfl
  updateSets := by
    rw [keep_eq]
    rfl
  issues := by
    rw [keep_eq]
    exact List.prefix_rfl
  captured := by
    intro result hmem error herror
    rw [List.mem_singleton.mp hmem] at herror
    cases herror

theorem analyzed_of_error {before : Analyzer} {unit : NalUnit} {error : Error}
    (h : Record.ofUnit before.sets unit = .error error) (hbitstream : error.isBitstream = true) :
    Analyzed before [unit] [{ index := before.unitCount, unit, outcome := .error error }]
      ((before.count unit).log
        (.ofError error before.unitCount (unit.type?.map fun type => type.code) none)) where
  taken := rfl
  decoded := by
    show [Except.error error] = [Record.ofUnit before.sets unit]
    rw [h]
  sets := by
    show _ = setsAfterUnit before.updateSets before.sets unit
    unfold setsAfterUnit
    rw [h]
    rfl
  updateSets := rfl
  issues := List.prefix_append _ _
  captured := by
    intro result hmem found herror
    rw [List.mem_singleton.mp hmem] at herror ⊢
    cases herror
    exact ⟨hbitstream, List.mem_append_right _ (List.mem_singleton.mpr rfl)⟩

theorem analyzes_analyzeUnit {before : Analyzer} (hsets : before.sets.Decoded) (unit : NalUnit) :
    Analyzes ((fun result => [result]) <$> analyzeUnit unit) before [unit] before.framer := by
  have hwidths := ParamSets.fieldWidths_of_decoded hsets
  unfold Analyzes
  -- an overwide slice is the one unit whose error is not caught
  by_cases hwide : ∃ width, Overwide before.sets unit width
  · obtain ⟨width, hwide⟩ := hwide
    have hrecord := Record.ofUnit_of_overwide hwidths hwide
    rw [map_of_error (analyzeUnit_of_misuse hrecord rfl)]
    exact ⟨width, rfl, meetsOverwide_cons_iff.mpr (.inl hwide)⟩
  · have hclear : ∀ width, ¬MeetsOverwide before.updateSets before.sets [unit] width := by
      intro width h
      rcases meetsOverwide_cons_iff.mp h with h | h
      · exact hwide ⟨width, h⟩
      · exact not_meetsOverwide_nil h
    have hchecked := Record.checked_ofUnit hwidths fun width h => hwide ⟨width, h⟩
    cases hrecord : Record.ofUnit before.sets unit with
    | ok record =>
      rw [map_of_ok (analyzeUnit_of_ok hrecord)]
      refine ⟨analyzed_of_ok hrecord, ?_, hclear⟩
      rw [keep_eq]
      rfl
    | error error =>
      have hbitstream := hchecked error hrecord
      rw [map_of_ok (analyzeUnit_of_bitstream hrecord hbitstream)]
      exact ⟨analyzed_of_error hrecord hbitstream, rfl, hclear⟩

/-! ## Runs in which no other error comes up -/

/-- If all errors of some units are ones that a stream can cause, an action comes to its end. -/
def Completes (action : Analyze (List UnitResult)) (before : Analyzer) (units : List NalUnit)
    (framer : Framer) : Prop :=
  (∀ outcome ∈ outcomes before.updateSets before.sets units, CheckedOutcome outcome) →
    ∃ results after, action before = .ok results after ∧ Analyzed before units results after ∧
      after.framer = framer

theorem completes_analyzeUnit (before : Analyzer) (unit : NalUnit) :
    Completes ((fun result => [result]) <$> analyzeUnit unit) before [unit] before.framer := by
  intro hchecked
  cases hrecord : Record.ofUnit before.sets unit with
  | ok record =>
    refine ⟨_, _, map_of_ok (analyzeUnit_of_ok hrecord) _, analyzed_of_ok hrecord, ?_⟩
    rw [keep_eq]
    rfl
  | error error =>
    have hbitstream := hchecked _ List.mem_cons_self error hrecord
    exact ⟨_, _, map_of_ok (analyzeUnit_of_bitstream hrecord hbitstream) _,
      analyzed_of_error hrecord hbitstream, rfl⟩

theorem completes_both {first second : Analyze (List UnitResult)} {before : Analyzer}
    {front back : List NalUnit} {middle framer : Framer}
    (hfirst : Completes first before front middle)
    (hsecond : ∀ mid, mid.framer = middle → Completes second mid back framer) :
    Completes (both first second) before (front ++ back) framer := by
  intro hchecked
  rw [outcomes_append] at hchecked
  obtain ⟨results, mid, hrun, hdone, hmiddle⟩ :=
    hfirst fun outcome hmem => hchecked outcome (List.mem_append_left _ hmem)
  have hlater : ∀ outcome ∈ outcomes mid.updateSets mid.sets back, CheckedOutcome outcome := by
    intro outcome hmem
    rw [hdone.updateSets, hdone.sets] at hmem
    exact hchecked outcome (List.mem_append_right _ hmem)
  obtain ⟨more, after, hrest, hlast, hframer⟩ := hsecond mid hmiddle hlater
  refine ⟨results ++ more, after, ?_, hdone.append hlast, hframer⟩
  rw [both_of_ok hrun, map_of_ok hrest]

theorem stepwise_completes : Stepwise Completes where
  nothing before _ := ⟨[], before, rfl, .nil before, rfl⟩
  unit := completes_analyzeUnit
  both := completes_both
  framed {action before units framer} haction hunits hchecked := by
    obtain ⟨results, after, hrun, hdone, hframer⟩ := hunits hchecked
    exact ⟨results, after, haction.trans hrun, ⟨hdone.taken, hdone.decoded, hdone.sets,
      hdone.updateSets, hdone.issues, hdone.captured⟩, hframer⟩
  logged issue haction hchecked := by
    obtain ⟨results, after, hrun, hdone, hframer⟩ := haction hchecked
    exact ⟨results, after.log (issue after), bind_of_ok hrun _, hdone.log (issue after), hframer⟩

/-- Decoding comes to its end if all errors are ones that a stream can cause. -/
theorem exists_analyzed {before : Analyzer} {units : List NalUnit}
    (h : ∀ outcome ∈ outcomes before.updateSets before.sets units, CheckedOutcome outcome) :
    ∃ results after, analyzeUnits units before = .ok results after ∧
      Analyzed before units results after := by
  obtain ⟨results, after, hrun, hdone, -⟩ := stepwise_completes.analyzeUnits before units h
  exact ⟨results, after, hrun, hdone⟩

/-! ## Whole runs -/

theorem analyzes_thenLog {action : Analyze (List UnitResult)} {before : Analyzer}
    {units : List NalUnit} {framer : Framer} (issue : Analyzer → Issue (Option Nat))
    (h : Analyzes action before units framer) :
    Analyzes (thenLog action issue) before units framer := by
  unfold Analyzes at h ⊢
  unfold thenLog
  cases hrun : action before with
  | error error after =>
    rw [hrun] at h
    rw [bind_of_error hrun]
    exact h
  | ok results after =>
    rw [hrun] at h
    obtain ⟨hdone, hframer, hclear⟩ := h
    rw [bind_of_ok hrun]
    exact ⟨hdone.log (issue after), hframer, hclear⟩

/-- What an action makes of the units that it has framed. -/
theorem analyzes_of_framed {action : Analyze (List UnitResult)} {before : Analyzer}
    {units : List NalUnit} {framer : Framer}
    (haction : action before = analyzeUnits units { before with framer })
    (hunits : Analyzes (analyzeUnits units) { before with framer } units framer) :
    Analyzes action before units framer := by
  unfold Analyzes at hunits ⊢
  rw [haction]
  cases hrun : analyzeUnits units { before with framer } with
  | error error after =>
    rw [hrun] at hunits
    exact hunits
  | ok results after =>
    rw [hrun] at hunits
    obtain ⟨hdone, hframer, hclear⟩ := hunits
    exact ⟨⟨hdone.taken, hdone.decoded, hdone.sets, hdone.updateSets, hdone.issues,
      hdone.captured⟩, hframer, hclear⟩

theorem stepwise_analyzes : Stepwise fun action before units framer =>
    before.sets.Decoded → Analyzes action before units framer where
  nothing before _ := ⟨.nil before, rfl, fun width => not_meetsOverwide_nil⟩
  unit before unit hsets := analyzes_analyzeUnit hsets unit
  both hfirst hsecond hsets := analyzes_both (hfirst hsets) fun mid _ hframer hmid =>
    hsecond mid hframer (by rw [hmid]; exact decoded_setsAfter hsets _)
  framed haction hunits hsets := analyzes_of_framed haction (hunits hsets)
  logged issue haction hsets := analyzes_thenLog issue (haction hsets)

theorem analyzes_performAll {before : Analyzer} (hsets : before.sets.Decoded)
    (calls : List Call) :
    Analyzes (performAll calls) before (frameAll before.framer calls).1
      (frameAll before.framer calls).2 :=
  stepwise_analyzes.performAll before calls hsets

/-- **What stops an analysis.** With parameter sets that were read from data, calls end in an error
just when one of their units is a slice that is legal up to a change cycle of more than 32 bits.
Otherwise every unit has its result, and every error is in a result and in the log. -/
theorem analysis_stops_iff_overwide {analyzer : Analyzer} (hsets : analyzer.sets.Decoded)
    (calls : List Call) :
    ((∃ error after, performAll calls analyzer = .error error after) ↔
      ∃ width, MeetsOverwide analyzer.updateSets analyzer.sets
        (frameAll analyzer.framer calls).1 width) ∧
    (∀ error after, performAll calls analyzer = .error error after →
      ∃ width : Nat, error = .misuse (.readWidth width) ∧
        MeetsOverwide analyzer.updateSets analyzer.sets
          (frameAll analyzer.framer calls).1 width) ∧
    (∀ results after, performAll calls analyzer = .ok results after →
      Analyzed analyzer (frameAll analyzer.framer calls).1 results after) := by
  have hrun := analyzes_performAll hsets calls
  unfold Analyzes at hrun
  cases hend : performAll calls analyzer with
  | error error after =>
    rw [hend] at hrun
    obtain ⟨width, herror, hwide⟩ := hrun
    refine ⟨⟨fun _ => ⟨width, hwide⟩, fun _ => ⟨error, after, rfl⟩⟩, ?_, ?_⟩
    · rintro _ _ ⟨⟩
      exact ⟨width, herror, hwide⟩
    · rintro _ _ ⟨⟩
  | ok results after =>
    rw [hend] at hrun
    obtain ⟨hdone, -, hclear⟩ := hrun
    refine ⟨⟨?_, ?_⟩, ?_, ?_⟩
    · rintro ⟨_, _, ⟨⟩⟩
    · rintro ⟨width, hwide⟩
      exact absurd hwide (hclear width)
    · rintro _ _ ⟨⟩
    · rintro _ _ ⟨⟩
      exact hdone

/-! ## An analysis that stops -/

/-- A sequence of 131072 by 65536 macroblocks, a picture parameter set whose slice groups change by
one map unit, and a slice. -/
def overwideUnits : List NalUnit :=
  [{ bytes := [0x67, 0x42, 0x00, 0x0a, 0xdc, 0x00, 0x00, 0x80, 0x00, 0x00, 0x03, 0x00, 0x20, 0x00,
      0x11] },
   { bytes := [0x68, 0xc4, 0x47, 0x1c, 0x40] },
   { bytes := [0x01, 0x88, 0x86] }]

theorem performAll_units_overwideUnits :
    ∃ after, performAll [.units overwideUnits] {} = .error (.misuse (.readWidth 34)) after := by
  have hend : (match performAll [.units overwideUnits] {} with
      | .error error _ => error == .misuse (.readWidth 34)
      | .ok .. => false) = true := by decide +kernel
  split at hend
  · rename_i error after hrun
    exact ⟨after, by rw [hrun, eq_of_beq hend]⟩
  · cases hend

/-- One of these units is an overwide slice, for they stop an analysis. -/
theorem analysis_stops_iff_overwide_overwideUnits :
    ParamSets.Decoded {} ∧ ∃ width, MeetsOverwide true {} overwideUnits width := by
  refine ⟨.empty, ?_⟩
  obtain ⟨after, hrun⟩ := performAll_units_overwideUnits
  exact (@analysis_stops_iff_overwide {} .empty [.units overwideUnits]).1.mp
    ⟨_, after, hrun⟩

/-- Not every analysis comes to its end. -/
theorem analysis_can_stop :
    ¬∀ analyzer : Analyzer, analyzer.sets.Decoded → ∀ calls error after,
      performAll calls analyzer ≠ .error error after := by
  intro h
  obtain ⟨after, hrun⟩ := performAll_units_overwideUnits
  exact h {} .empty [.units overwideUnits] _ after hrun

end Analyzer

end H264
