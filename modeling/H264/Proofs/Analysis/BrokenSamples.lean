import H264.Proofs.Analysis.InputPaths
import H264.Proofs.Analysis.Notes
import H264.Proofs.Framing.SampleBreaks

/-!
# Broken samples

A sample that breaks off costs an analysis no unit that was framed before the break, and a unit that
cannot be decoded costs it nothing of the sample: samples are analysed as the units that they begin
with, and each break adds one issue.

* `LongestFraming` — the units that a sample begins with, as many as there are;
* `SamplesAnalysed` — the results and the issues of samples, one after the other;
* **`samples_analysed_as_units`** — an analysis of samples, compared with one of their units.
-/

namespace H264

open Framing

/-! ## What a sample begins with -/

/-- A sample begins with these units, each after its length, and with no more. -/
structure LongestFraming (size : LengthSize) (sample : Bytes) (units : List Bytes) : Prop where
  fits : ∀ unit ∈ units, unit.length < 256 ^ size.bytes
  begins : units.flatMap (entry size) <+: sample
  longest : ∀ others : List Bytes, (∀ unit ∈ others, unit.length < 256 ^ size.bytes) →
    others.flatMap (entry size) <+: sample → others <+: units

variable {size : LengthSize}

theorem Framing.BreaksAfter.longestFraming {sample rest : Bytes} {units : List Bytes}
    (h : BreaksAfter size sample units rest) : LongestFraming size sample units where
  fits := h.fits
  begins := ⟨rest, h.sample_eq.symm⟩
  longest _ hothers hbegins := h.isPrefix hothers hbegins

/-- There is just one longest sequence. -/
theorem LongestFraming.unique {sample : Bytes} {first second : List Bytes}
    (hfirst : LongestFraming size sample first) (hsecond : LongestFraming size sample second) :
    first = second := by
  have hprefix := hsecond.longest first hfirst.fits hfirst.begins
  exact hprefix.eq_of_length_le (hfirst.longest second hsecond.fits hsecond.begins).length_le

/-- Every sample is framed as the units that it begins with, less the empty ones; if these are not
all of it, it breaks off behind them. -/
theorem exists_longestFraming (size : LengthSize) (sample : Bytes) :
    ∃ units, LongestFraming size sample units ∧
      (units.flatMap (entry size) = sample ∧
          sampleUnits size 0 sample = (unitsFrom size 0 units, none) ∨
        units.flatMap (entry size) ≠ sample ∧ ∃ cause, sampleUnits size 0 sample =
          (unitsFrom size 0 units, some (.framing (units.flatMap (entry size)).length cause))) := by
  obtain ⟨units, rest, h⟩ := exists_breaksAfter size sample
  have hwhole : units.flatMap (entry size) = sample ↔ rest = [] := by
    rw [h.sample_eq, List.self_eq_append_right]
  refine ⟨units, h.longestFraming, ?_⟩
  rw [ne_eq, hwhole]
  exact sampleUnits_eq h

theorem exists_longestFramings (size : LengthSize) (samples : List Bytes) :
    ∃ framings, List.Forall₂ (LongestFraming size) samples framings ∧
      (samples.flatMap fun sample => (sampleUnits size 0 sample).1) =
        framings.flatMap (unitsFrom size 0) := by
  induction samples with
  | nil => exact ⟨[], .nil, rfl⟩
  | cons sample samples ih =>
    obtain ⟨framings, hframings, hlater⟩ := ih
    obtain ⟨units, hframing, hends⟩ := exists_longestFraming size sample
    have hframed : (sampleUnits size 0 sample).1 = unitsFrom size 0 units := by
      rcases hends with ⟨-, hrun⟩ | ⟨-, cause, hrun⟩
      · rw [hrun]
      · rw [hrun]
    refine ⟨units :: framings, .cons hframing hframings, ?_⟩
    rw [List.flatMap_cons, hframed, hlater, List.flatMap_cons]

/-! ## What is made of samples -/

/-- What an analysis makes of samples, from one with a given index on and after `count` units. The
units of a sample have results and issues whatever comes of them; if the sample does not end behind
them, an issue of its own follows theirs. -/
inductive SamplesAnalysed (size : LengthSize) : (index count : Nat) → List Bytes →
    List UnitResult → IssueLog (Option Nat) → Prop
  | nil {index count : Nat} : SamplesAnalysed size index count [] [] []
  | whole {index count : Nat} {sample : Bytes} {samples units : List Bytes}
    {group results : List UnitResult} {issues : IssueLog (Option Nat)}
    (framing : LongestFraming size sample units)
    (ends : units.flatMap (entry size) = sample)
    (taken : group.map UnitResult.unit = unitsFrom size 0 units)
    (later : SamplesAnalysed size (index + 1) (count + group.length) samples results issues) :
    SamplesAnalysed size index count (sample :: samples) (group ++ results)
      (group.filterMap UnitResult.issue? ++ issues)
  | broken {index count : Nat} {sample : Bytes} {samples units : List Bytes}
    {group results : List UnitResult} {issues : IssueLog (Option Nat)}
    {issue : Issue (Option Nat)}
    (framing : LongestFraming size sample units)
    (breaks : units.flatMap (entry size) ≠ sample)
    (taken : group.map UnitResult.unit = unitsFrom size 0 units)
    (kind : issue.kind = .malformedFraming)
    (unitIndex : issue.unitIndex = (count + group.length : Nat))
    (unitType : issue.unitType = none)
    (context : issue.context = some index)
    (later : SamplesAnalysed size (index + 1) (count + group.length) samples results issues) :
    SamplesAnalysed size index count (sample :: samples) (group ++ results)
      (group.filterMap UnitResult.issue? ++ issue :: issues)

/-! ## Notes of samples -/

section

variable {update : Bool} {index : Nat} {sets : ParamSets}

theorem samplesAnalysed_notes (sampleIndex : Nat) (samples : List Bytes) :
    SamplesAnalysed size sampleIndex index samples
      ((notes update index sets (Framed.ofSamples size sampleIndex samples)).filterMap Note.result?)
      ((notes update index sets (Framed.ofSamples size sampleIndex samples)).filterMap
        Note.issue?) := by
  induction samples generalizing index sets sampleIndex with
  | nil => exact .nil
  | cons sample samples ih =>
    obtain ⟨units, hframing, hends⟩ := exists_longestFraming size sample
    have hgroup := @map_unit_unitResults update index sets (unitsFrom size 0 units)
    have hlength := congrArg List.length hgroup
    rw [List.length_map] at hlength
    unfold Framed.ofSamples Framed.ofSample
    rcases hends with ⟨hwhole, hframed⟩ | ⟨hbroken, cause, hframed⟩
    · rw [hframed, Option.map_none, Option.toList_none, List.append_nil, notes_append,
        List.filterMap_append, List.filterMap_append, notes_units, filterMap_result_map_unit,
        filterMap_issue_map_unit, Framed.filterMap_map_unit, ← hlength]
      exact .whole hframing hwhole hgroup (ih _)
    · -- the break is noted behind the units of the sample
      rw [hframed, List.append_assoc, notes_append, List.filterMap_append, List.filterMap_append,
        notes_units, filterMap_result_map_unit, filterMap_issue_map_unit,
        Framed.filterMap_map_unit, ← hlength]
      exact .broken hframing hbroken hgroup rfl rfl rfl rfl (ih _)

end

/-- The issues without a sample are those of the units. -/
theorem filter_context_issues (taken : List Note) :
    (taken.filterMap Note.issue?).filter (·.context.isNone) =
      (taken.filterMap Note.result?).filterMap UnitResult.issue? := by
  induction taken with
  | nil => rfl
  | cons note taken ih =>
    rw [filterMap_cons_toList, List.filter_append, ih, filterMap_cons_toList,
      List.filterMap_append]
    cases note with
    | broken sampleIndex error unitCount => rfl
    | unit result =>
      refine congrArg (· ++ _) ?_
      show result.issue?.toList.filter _ = [result].filterMap _
      rw [filterMap_cons_toList]
      unfold UnitResult.issue?
      cases result.error? with
      | none => rfl
      | some error => rfl

namespace Analyzer

/-! ## Samples and units -/

theorem Alike.noted {first second : Analyzer} (h : first.Alike second) (note : Note) :
    (first.noted note).Alike (second.noted note) := by
  rw [noted_eq, noted_eq, h.sets, h.updateSets, h.unitCount, h.typeCounts]
  exact ⟨rfl, rfl, rfl, rfl⟩

theorem Alike.moved {first second : Analyzer} (h : first.Alike second) (framer framer' : Framer) :
    (first.moved framer).Alike (second.moved framer') :=
  ⟨h.sets, h.updateSets, h.unitCount, h.typeCounts⟩

/-- Breaks between units change nothing but the log. -/
theorem recorded_units_alike {first second : Analyzer} (h : first.Alike second)
    (pieces : List Framed) :
    (first.recorded pieces).Alike
      (second.recorded ((pieces.filterMap Framed.unit?).map .unit)) := by
  induction pieces generalizing first second with
  | nil => exact h
  | cons piece pieces ih =>
    rw [recorded_cons, filterMap_cons_toList, List.map_append]
    cases piece with
    | broken sampleIndex error => exact ih ⟨h.sets, h.updateSets, h.unitCount, h.typeCounts⟩
    | unit unit =>
      show Alike _ (second.recorded (Framed.unit unit :: _))
      rw [recorded_cons, nextNote_unit, nextNote_unit, ← h.unitCount, ← h.sets]
      exact ih (h.noted _)

/-- **Samples are analysed as their units.** If all errors of the units are ones that a stream can
cause, samples give the results and leave the parameter sets and counts that the units give which
they begin with, in order, and log the issues of these units; and each sample that goes on behind
its units, and only such a sample, has one issue more, behind those of its units, with its index and
the number of units analysed up to there. -/
theorem samples_analysed_as_units (size : LengthSize) (samples : List Bytes) (analyzer : Analyzer)
    (hchecked : ∀ outcome ∈ outcomes analyzer.updateSets analyzer.sets
      (samples.flatMap fun sample => (sampleUnits size 0 sample).1), CheckedOutcome outcome) :
    ∃ framings, List.Forall₂ (LongestFraming size) samples framings ∧
      ∃ results given sampled logged,
        performAll [.units (framings.flatMap (unitsFrom size 0))] analyzer = .ok results given ∧
        performAll [.samples size samples] analyzer = .ok results sampled ∧
        sampled.Alike given ∧
        given.issues = analyzer.issues ++ results.filterMap UnitResult.issue? ∧
        sampled.issues = analyzer.issues ++ logged ∧
        logged.filter (·.context.isNone) = results.filterMap UnitResult.issue? ∧
        SamplesAnalysed size 0 analyzer.unitCount samples results logged := by
  obtain ⟨framings, hframings, hunits⟩ := exists_longestFramings size samples
  rw [hunits] at hchecked
  have hpieces := (Framed.filterMap_ofSamples size 0 samples).trans hunits
  have hsampled : performAll [.samples size samples] analyzer = _ :=
    (congrFun (performAll_singleton _) _).trans (perform_of_going
      ((forall_stop_notes_iff (Framed.ofSamples size 0 samples)).mpr (hpieces.symm ▸ hchecked)))
  -- the two runs differ in the breaks that are noted between the units
  have hresults := @filterMap_result_notes analyzer.updateSets analyzer.unitCount analyzer.sets
    (Framed.ofSamples size 0 samples)
  have hstart : analyzer.Alike analyzer := ⟨rfl, rfl, rfl, rfl⟩
  have halike := recorded_units_alike hstart (Framed.ofSamples size 0 samples)
  have hunitsRun := @perform_of_going analyzer (.units (framings.flatMap (unitsFrom size 0)))
    ((forall_stop_notes_iff _).mpr ((Framed.filterMap_map_unit _).symm ▸ hchecked))
  have hissues := issues_recorded analyzer ((framings.flatMap (unitsFrom size 0)).map .unit)
  rw [hpieces] at hresults halike
  have hgiven : performAll [.units (framings.flatMap (unitsFrom size 0))] analyzer =
      .ok ((analyzer.nextNotes (Framed.ofSamples size 0 samples)).filterMap Note.result?)
        ((analyzer.recorded ((framings.flatMap (unitsFrom size 0)).map .unit)).moved
          analyzer.framer) := by
    rw [performAll_singleton, nextNotes, hresults, ← filterMap_result_map_unit (unitResults _ _ _ _),
      ← notes_units]
    exact hunitsRun
  rw [nextNotes, notes_units, filterMap_issue_map_unit, ← hresults] at hissues
  exact ⟨framings, hframings, _, _, _, _, hgiven, hsampled, halike.moved _ _, hissues,
    issues_recorded analyzer _, filter_context_issues _, samplesAnalysed_notes 0 samples⟩

/-- A sample of a delimiter with an illegal escape and a good one, a sample that breaks off behind a
good one, and a sample of an empty entry and a good one. -/
def unevenSamples : List Bytes :=
  [[0, 5, 0x09, 0x00, 0x00, 0x03, 0x04, 0, 2, 0x09, 0xf0], [0, 2, 0x09, 0x30, 0, 9, 0x09],
    [0, 0, 0, 2, 0x09, 0x50]]

theorem samples_analysed_as_units_unevenSamples :
    let size : LengthSize := ⟨2, by decide, by decide⟩
    (∀ outcome ∈ outcomes true {}
        (unevenSamples.flatMap fun sample => (sampleUnits size 0 sample).1),
      CheckedOutcome outcome) ∧
    ∃ framings, List.Forall₂ (LongestFraming size) unevenSamples framings ∧
      ∃ results given sampled logged,
        performAll [.units (framings.flatMap (unitsFrom size 0))] {} = .ok results given ∧
        performAll [.samples size unevenSamples] {} = .ok results sampled ∧
        sampled.Alike given ∧ given.issues = [] ++ results.filterMap UnitResult.issue? ∧
        sampled.issues = [] ++ logged ∧
        logged.filter (·.context.isNone) = results.filterMap UnitResult.issue? ∧
        SamplesAnalysed size 0 0 unevenSamples results logged := by
  intro size
  have hchecked : ∀ outcome ∈ outcomes true {}
      (unevenSamples.flatMap fun sample => (sampleUnits size 0 sample).1),
      CheckedOutcome outcome := by
    decide +kernel
  exact ⟨hchecked, samples_analysed_as_units size unevenSamples {} hchecked⟩

end Analyzer

end H264
