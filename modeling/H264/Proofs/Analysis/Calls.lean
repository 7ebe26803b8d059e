import H264.Analyzer
import H264.Proofs.Framing.Samples
import H264.Proofs.Runs

/-!
# Calls of an analysis

An analysis is a sequence of calls, each of which frames units and decodes them in order. `frameAll`
says which units these are, whatever comes of them. What holds of one unit, passes from one action
to two in a row, and is broken neither by a framer that has moved on nor by an issue in the log,
holds of every sequence of calls: `Stepwise.performAll`.

A sample is framed while it is analysed, and errors of both are raised in one loop. They are kept
apart: `analyzeSample_of_whole` and `analyzeSample_of_broken` say that the units are analysed and
the break is logged as if the sample had been framed before.
-/

namespace H264.Analyzer

open Framing

/-! ## One action after another -/

/-- The results of two actions, one after the other. -/
def both (first second : Analyze (List UnitResult)) : Analyze (List UnitResult) :=
  return (← first) ++ (← second)

theorem both_of_error {first second : Analyze (List UnitResult)} {before mid : Analyzer}
    {error : Error} (h : first before = .error error mid) :
    both first second before = .error error mid :=
  bind_of_error h _

theorem both_of_ok {first second : Analyze (List UnitResult)} {before mid : Analyzer}
    {results : List UnitResult} (h : first before = .ok results mid) :
    both first second before = ((results ++ ·) <$> second) mid := by
  rw [map_eq_pure_bind]
  exact bind_of_ok h _

theorem both_assoc (first second third : Analyze (List UnitResult)) :
    both (both first second) third = both first (both second third) := by
  unfold both
  simp only [bind_assoc, pure_bind, List.append_assoc]

theorem both_nothing (action : Analyze (List UnitResult)) : both (pure []) action = action := by
  unfold both
  simp only [pure_bind, List.nil_append, bind_pure]

/-! ## One unit -/

theorem keep_eq (analyzer : Analyzer) (record : Record) :
    analyzer.keep record = { analyzer with
      sets := if analyzer.updateSets then analyzer.sets.storeRecord record else analyzer.sets } := by
  unfold keep
  by_cases h : analyzer.updateSets
  · rw [if_pos h, if_pos h]
  · rw [if_neg h, if_neg h]

theorem analyzeUnit_of_ok {before : Analyzer} {unit : NalUnit} {record : Record}
    (h : Record.ofUnit before.sets unit = .ok record) :
    analyzeUnit unit before = .ok { index := before.unitCount, unit, outcome := .ok record }
      ((before.count unit).keep record) := by
  unfold analyzeUnit
  rw [get_bind]
  dsimp only
  rw [set_bind, h]
  rfl

theorem analyzeUnit_of_bitstream {before : Analyzer} {unit : NalUnit} {error : Error}
    (h : Record.ofUnit before.sets unit = .error error) (hbitstream : error.isBitstream = true) :
    analyzeUnit unit before = .ok { index := before.unitCount, unit, outcome := .error error }
      ((before.count unit).log
        (.ofError error before.unitCount (unit.type?.map fun type => type.code) none)) := by
  unfold analyzeUnit
  rw [get_bind]
  dsimp only
  rw [set_bind, h]
  dsimp only
  rw [hbitstream]
  rfl

theorem analyzeUnit_of_misuse {before : Analyzer} {unit : NalUnit} {error : Error}
    (h : Record.ofUnit before.sets unit = .error error) (hmisuse : error.isBitstream = false) :
    analyzeUnit unit before = .error error (before.count unit) := by
  unfold analyzeUnit
  rw [get_bind]
  dsimp only
  rw [set_bind, h]
  dsimp only
  rw [hmisuse]
  rfl

/-! ## Calls -/

/-- A call of an analysis. -/
inductive Call
  | feed (chunk : Bytes)
  | flush
  | units (given : List NalUnit)
  | samples (size : LengthSize) (given : List Bytes)

/-- What a call does. -/
def perform : Call → Analyze (List UnitResult)
  | .feed chunk => feed chunk
  | .flush => flush
  | .units given => analyzeUnits given
  | .samples size given => analyzeSamples size 0 given

/-- What some calls do, one after the other. -/
def performAll : List Call → Analyze (List UnitResult)
  | [] => return []
  | call :: calls => both (perform call) (performAll calls)

/-- The units of a call, and the framer after it. -/
def Call.frame (framer : Framer) : Call → List NalUnit × Framer
  | feed chunk => framer.feed chunk
  | flush => framer.finish
  | units given => (given, framer)
  | samples size given => (given.flatMap fun sample => (sampleUnits size 0 sample).1, framer)

/-- The units of some calls, and the framer after them. -/
def frameAll (framer : Framer) : List Call → List NalUnit × Framer
  | [] => ([], framer)
  | call :: calls =>
    let (units, middle) := call.frame framer
    let (others, last) := frameAll middle calls
    (units ++ others, last)

theorem frameAll_cons (framer : Framer) (call : Call) (calls : List Call) :
    frameAll framer (call :: calls) =
      ((call.frame framer).1 ++ (frameAll (call.frame framer).2 calls).1,
        (frameAll (call.frame framer).2 calls).2) :=
  rfl

/-! ## Units in a row -/

theorem analyzeUnits_cons (unit : NalUnit) (units : List NalUnit) :
    analyzeUnits (unit :: units) =
      both ((fun result => [result]) <$> analyzeUnit unit) (analyzeUnits units) := by
  unfold both
  rw [map_eq_pure_bind, bind_assoc]
  rfl

theorem analyzeUnits_append (front back : List NalUnit) :
    analyzeUnits (front ++ back) = both (analyzeUnits front) (analyzeUnits back) := by
  induction front with
  | nil => exact (both_nothing _).symm
  | cons unit front ih =>
    rw [List.cons_append, analyzeUnits_cons, ih, analyzeUnits_cons, both_assoc]

/-- Log an issue after an action. -/
def thenLog (action : Analyze (List UnitResult)) (issue : Analyzer → Issue (Option Nat)) :
    Analyze (List UnitResult) := do
  let results ← action
  modify fun analyzer => analyzer.log (issue analyzer)
  return results

/-! ## Samples -/

/-- An error that ends the analysis of a unit is none that a stream can cause, and so none of
framing. -/
theorem isFraming_of_analyzeUnit {unit : NalUnit} {before after : Analyzer} {error : Error}
    (h : analyzeUnit unit before = .error error after) : error.isFraming = false := by
  cases hrecord : Record.ofUnit before.sets unit with
  | ok record =>
    rw [analyzeUnit_of_ok hrecord] at h
    cases h
  | error cause =>
    cases hbitstream : cause.isBitstream with
    | true =>
      rw [analyzeUnit_of_bitstream hrecord hbitstream] at h
      cases h
    | false =>
      rw [analyzeUnit_of_misuse hrecord hbitstream] at h
      cases h
      cases error with
      | notFound | misuse | wrongKey => rfl
      | field | framing | escape | general => cases hbitstream

theorem isFraming_of_analyzeUnits {units : List NalUnit} {before after : Analyzer} {error : Error}
    (h : analyzeUnits units before = .error error after) : error.isFraming = false := by
  induction units generalizing before with
  | nil => cases h
  | cons unit units ih =>
    unfold analyzeUnits at h
    cases hfirst : analyzeUnit unit before with
    | error cause mid =>
      rw [bind_of_error hfirst] at h
      cases h
      exact isFraming_of_analyzeUnit hfirst
    | ok result mid =>
      rw [bind_of_ok hfirst] at h
      cases hlater : analyzeUnits units mid with
      | error cause last =>
        rw [bind_of_error hlater] at h
        cases h
        exact ih hlater
      | ok results last =>
        rw [bind_of_ok hlater] at h
        cases h

/-- A loop over the entries of a sample ends as the analysis of its units does, which may have been
framed before: at the break of the sample, or with the error of a unit. -/
def EndsAs (ending : List UnitResult × Option Error × Analyzer) (broken : Option Error) :
    EStateM.Result Error Analyzer (List UnitResult) → Prop
  | .ok results after => ending = (results, broken, after)
  | .error error after => ∃ results, ending = (results, some error, after)

/-- **A sample is framed no further than it is analysed**, and yet as if it had been framed before:
what is behind an entry does not change it, and no unit changes what is framed behind it. -/
theorem endsAs_analyzeEntries (size : LengthSize) (offset : Nat) (sample : Bytes)
    (before : Analyzer) :
    EndsAs (analyzeEntries size offset sample before) (sampleUnits size offset sample).2
      (analyzeUnits (sampleUnits size offset sample).1 before) := by
  fun_induction analyzeEntries size offset sample before with
  | case1 offset sample before h =>
    rw [sampleUnits_of_end h]
    exact rfl
  | case2 offset sample before error h =>
    rw [sampleUnits_of_error h]
    exact rfl
  | case3 offset sample before unit rest h next hempty ih =>
    rw [sampleUnits_of_entry h, if_pos (List.isEmpty_iff.mp hempty), List.nil_append]
    exact ih
  | case4 offset sample before unit rest h hsome error after hunit =>
    rw [sampleUnits_of_entry h, if_neg (mt List.isEmpty_iff.mpr hsome), List.singleton_append,
      analyzeUnits, bind_of_error hunit]
    exact ⟨[], rfl⟩
  | case5 offset sample before unit rest h next hsome result after hunit results ending hrest ih =>
    rw [sampleUnits_of_entry h, if_neg (mt List.isEmpty_iff.mpr hsome), List.singleton_append,
      analyzeUnits, bind_of_ok hunit]
    rw [hrest] at ih
    cases hlater : analyzeUnits (sampleUnits size next rest).1 after with
    | ok later last =>
      rw [hlater] at ih
      cases ih
      rw [bind_of_ok hlater]
      exact rfl
    | error error last =>
      rw [hlater] at ih
      obtain ⟨later, hending⟩ := ih
      cases hending
      rw [bind_of_error hlater]
      exact ⟨_, rfl⟩

section

variable {size : LengthSize} {index : Nat} {sample : Bytes} {before after : Analyzer}

theorem analyzeEntries_of_ok {results : List UnitResult}
    (h : analyzeUnits (sampleUnits size 0 sample).1 before = .ok results after) :
    analyzeEntries size 0 sample before = (results, (sampleUnits size 0 sample).2, after) := by
  have hends := endsAs_analyzeEntries size 0 sample before
  rwa [h] at hends

/-- An error of a unit is not taken for a break of its sample. -/
theorem analyzeSample_of_error {error : Error}
    (h : analyzeUnits (sampleUnits size 0 sample).1 before = .error error after) :
    analyzeSample size index sample before = .error error after := by
  have hends := endsAs_analyzeEntries size 0 sample before
  rw [h] at hends
  obtain ⟨results, hentries⟩ := hends
  unfold analyzeSample
  rw [hentries]
  exact if_neg (Bool.eq_false_iff.mp (isFraming_of_analyzeUnits h))

theorem analyzeSample_of_whole (h : (sampleUnits size 0 sample).2 = none) :
    analyzeSample size index sample = analyzeUnits (sampleUnits size 0 sample).1 := by
  funext before
  cases hrun : analyzeUnits (sampleUnits size 0 sample).1 before with
  | ok results after =>
    unfold analyzeSample
    rw [analyzeEntries_of_ok hrun, h]
  | error error after => exact analyzeSample_of_error hrun

theorem analyzeSample_of_broken {error : Error}
    (h : (sampleUnits size 0 sample).2 = some error) :
    analyzeSample size index sample = thenLog (analyzeUnits (sampleUnits size 0 sample).1)
      fun analyzer => .ofError error analyzer.unitCount none (some index) := by
  funext before
  unfold thenLog
  cases hrun : analyzeUnits (sampleUnits size 0 sample).1 before with
  | ok results after =>
    unfold analyzeSample
    rw [analyzeEntries_of_ok hrun, h, bind_of_ok hrun]
    exact if_pos (isFraming_of_sampleUnits h)
  | error cause after => rw [analyzeSample_of_error hrun, bind_of_error hrun]

end

/-! ## What holds of every run -/

/-- A property of actions, of the analyzer before, the units that are analysed and the framer after,
that passes from the steps of an analysis to all of it. -/
structure Stepwise
    (holds : Analyze (List UnitResult) → Analyzer → List NalUnit → Framer → Prop) : Prop where
  nothing (before : Analyzer) : holds (pure []) before [] before.framer
  unit (before : Analyzer) (unit : NalUnit) :
    holds ((fun result => [result]) <$> analyzeUnit unit) before [unit] before.framer
  both {first second : Analyze (List UnitResult)} {before : Analyzer} {front back : List NalUnit}
    {middle framer : Framer} (hfirst : holds first before front middle)
    (hsecond : ∀ mid, mid.framer = middle → holds second mid back framer) :
    holds (both first second) before (front ++ back) framer
  framed {action : Analyze (List UnitResult)} {before : Analyzer} {units : List NalUnit}
    {framer : Framer} (haction : action before = analyzeUnits units { before with framer })
    (hunits : holds (analyzeUnits units) { before with framer } units framer) :
    holds action before units framer
  logged {action : Analyze (List UnitResult)} {before : Analyzer} {units : List NalUnit}
    {framer : Framer} (issue : Analyzer → Issue (Option Nat))
    (haction : holds action before units framer) :
    holds (thenLog action issue) before units framer

namespace Stepwise

variable {holds : Analyze (List UnitResult) → Analyzer → List NalUnit → Framer → Prop}

theorem analyzeUnits (h : Stepwise holds) (before : Analyzer) (units : List NalUnit) :
    holds (analyzeUnits units) before units before.framer := by
  induction units generalizing before with
  | nil => exact h.nothing before
  | cons unit units ih =>
    rw [analyzeUnits_cons]
    refine h.both (h.unit before unit) fun mid hframer => ?_
    rw [← hframer]
    exact ih mid

theorem analyzeSample (h : Stepwise holds) (before : Analyzer) (size : LengthSize) (index : Nat)
    (sample : Bytes) :
    holds (analyzeSample size index sample) before (sampleUnits size 0 sample).1
      before.framer := by
  have hunits := h.analyzeUnits before (sampleUnits size 0 sample).1
  -- the units before a break are analysed, and then the break is logged
  cases hbroken : (sampleUnits size 0 sample).2 with
  | none => rwa [analyzeSample_of_whole hbroken]
  | some error =>
    rw [analyzeSample_of_broken hbroken]
    exact h.logged _ hunits

theorem analyzeSamples (h : Stepwise holds) (before : Analyzer) (size : LengthSize) (index : Nat)
    (samples : List Bytes) :
    holds (analyzeSamples size index samples) before
      (samples.flatMap fun sample => (sampleUnits size 0 sample).1) before.framer := by
  induction samples generalizing before index with
  | nil => exact h.nothing before
  | cons sample samples ih =>
    rw [List.flatMap_cons]
    refine h.both (h.analyzeSample before size index sample) fun mid hframer => ?_
    rw [← hframer]
    exact ih mid (index + 1)

theorem perform (h : Stepwise holds) (before : Analyzer) (call : Call) :
    holds (perform call) before (call.frame before.framer).1 (call.frame before.framer).2 := by
  cases call with
  | feed chunk => exact h.framed rfl (h.analyzeUnits _ _)
  | flush => exact h.framed rfl (h.analyzeUnits _ _)
  | units given => exact h.analyzeUnits before given
  | samples size given => exact h.analyzeSamples before size 0 given

/-- What passes from the steps of an analysis to all of it holds of every sequence of calls. -/
theorem performAll (h : Stepwise holds) (before : Analyzer) (calls : List Call) :
    holds (performAll calls) before (frameAll before.framer calls).1
      (frameAll before.framer calls).2 := by
  induction calls generalizing before with
  | nil => exact h.nothing before
  | cons call calls ih =>
    rw [frameAll_cons]
    refine h.both (h.perform before call) fun mid hframer => ?_
    rw [← hframer]
    exact ih mid

end Stepwise

end H264.Analyzer
