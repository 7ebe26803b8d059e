import H264.Proofs.Analysis.Issues
import H264.Proofs.Analysis.Notes

/-!
# What an analysis conserves

An analysis counts its units, counts them by type, and logs issues at different times, some for a
unit and some for the break of a sample. Over any calls these accounts agree with each other and
with the results that the calls give.

* `unitCount_recorded`, `sum_typeCounts_recorded`, `length_issues` — what notes leave in each
  account;
* **`analysis_accounts_agree`** — the accounts after any calls.
-/

namespace H264

open Framing

/-! ## Counts by type -/

namespace NalUnit

/-- A unit has a type just if it is not empty. -/
theorem isSome_type?_iff (unit : NalUnit) : unit.type?.isSome ↔ unit.bytes ≠ [] := by
  unfold type?
  cases unit.bytes with
  | nil => simp
  | cons byte bytes => simp

end NalUnit

namespace Analyzer

/-- A note adds to the counts by type as many as there is a unit that is not empty. -/
theorem sum_typesAfter (counts : List (UnitType × Nat)) (note : Note) :
    ((note.typesAfter counts).map Prod.snd).sum =
      (counts.map Prod.snd).sum + note.result?.toList.countP fun result =>
        result.unit.bytes ≠ [] := by
  cases note with
  | broken sampleIndex error unitCount => rfl
  | unit result =>
    have htype := result.unit.isSome_type?_iff
    have hresult : (Note.unit result).result? = some result := rfl
    unfold Note.typesAfter
    rw [hresult, Option.bind_some, Option.toList_some, List.countP_singleton]
    simp only [decide_eq_true_eq]
    cases hkind : result.unit.type? with
    | none =>
      rw [hkind] at htype
      rw [if_neg fun h => nomatch htype.mpr h]
      rfl
    | some type =>
      rw [hkind] at htype
      rw [if_pos (htype.mp rfl)]
      exact sum_countOne counts type

/-! ## What notes leave -/

variable (before : Analyzer)

theorem unitCount_recorded (pieces : List Framed) :
    (before.recorded pieces).unitCount =
      before.unitCount + ((before.nextNotes pieces).filterMap Note.result?).length := by
  induction pieces generalizing before with
  | nil => rfl
  | cons piece pieces ih =>
    rw [recorded_cons, ih, nextNotes_cons, filterMap_cons_toList, List.length_append, noted_eq,
      Nat.add_assoc]

theorem sum_typeCounts_recorded (pieces : List Framed) :
    ((before.recorded pieces).typeCounts.map Prod.snd).sum =
      (before.typeCounts.map Prod.snd).sum +
        ((before.nextNotes pieces).filterMap Note.result?).countP fun result =>
          result.unit.bytes ≠ [] := by
  induction pieces generalizing before with
  | nil => rfl
  | cons piece pieces ih =>
    rw [recorded_cons, ih, nextNotes_cons, filterMap_cons_toList, List.countP_append, noted_eq,
      sum_typesAfter, Nat.add_assoc]

/-! ## Issues -/

/-- The samples of a call that break off. -/
def Call.breaks : Call → Nat
  | samples size given => given.countP fun sample => (sampleUnits size 0 sample).2.isSome
  | _ => 0

theorem countP_framed (framer : Framer) (call : Call) :
    (call.framed framer).countP (·.unit?.isNone) = call.breaks := by
  have hunits : ∀ units : List NalUnit,
      (units.map Framed.unit).countP (·.unit?.isNone) = 0 := by
    intro units
    rw [List.countP_map]
    exact List.countP_eq_zero.mpr fun unit _ => Bool.false_ne_true
  have hsamples : ∀ size index samples, (Framed.ofSamples size index samples).countP
      (·.unit?.isNone) = samples.countP fun sample => (sampleUnits size 0 sample).2.isSome := by
    intro size index samples
    induction samples generalizing index with
    | nil => rfl
    | cons sample samples ih =>
      rw [Framed.ofSamples, List.countP_append, ih, Framed.ofSample, List.countP_append, hunits,
        List.countP_cons]
      cases (sampleUnits size 0 sample).2 with
      | none => simp
      | some error => simp [Framed.unit?, Nat.add_comm]
  cases call with
  | feed chunk => exact hunits _
  | flush => exact hunits _
  | units given => exact hunits given
  | samples size given => exact hsamples size 0 given

theorem countP_framedAll (framer : Framer) (calls : List Call) :
    (framedAll framer calls).countP (·.unit?.isNone) = (calls.map Call.breaks).sum := by
  induction calls generalizing framer with
  | nil => rfl
  | cons call calls ih =>
    rw [framedAll, List.countP_append, countP_framed, ih, List.map_cons, List.sum_cons]

/-- A note has an issue if it is of a unit that fails, or of a break. -/
theorem length_issues (taken : List Note) :
    (taken.filterMap Note.issue?).length =
      (taken.filterMap Note.result?).countP (·.error?.isSome) +
        (taken.map Note.framed).countP (·.unit?.isNone) := by
  induction taken with
  | nil => rfl
  | cons note taken ih =>
    rw [filterMap_cons_toList, filterMap_cons_toList, List.length_append, ih, List.countP_append,
      List.map_cons, List.countP_cons]
    cases note with
    | broken sampleIndex error unitCount =>
      show 1 + _ = 0 + _ + (_ + 1)
      omega
    | unit result =>
      have hissue : result.issue?.toList.length = [result].countP (·.error?.isSome) := by
        unfold UnitResult.issue?
        rw [List.countP_singleton]
        cases result.error? with
        | none => rfl
        | some error => rfl
      show result.issue?.toList.length + _ = [result].countP _ + _ + (_ + 0)
      omega

end Analyzer

/-- A result has a record or an error, and not both. -/
theorem UnitResult.record?_or_error? (result : UnitResult) :
    result.record?.isSome ∧ result.error? = none ∨ result.record? = none ∧ result.error?.isSome := by
  obtain ⟨index, unit, outcome⟩ := result
  cases outcome with
  | ok record => exact .inl ⟨rfl, rfl⟩
  | error error => exact .inr ⟨rfl, rfl⟩

/-! ## The accounts -/

namespace Analyzer

/-- The accounts of an analysis agree with the results of its calls. What was framed and noted, in
stream order, gives the results and the issues. -/
structure AccountsAgree (calls : List Call) (taken : List Note) (results : List UnitResult)
    (after : Analyzer) : Prop where
  framed : taken.map Note.framed = framedAll {} calls
  results_eq : taken.filterMap Note.result? = results
  issues_eq : taken.filterMap Note.issue? = after.issues
  units : results.map UnitResult.unit = (frameAll {} calls).1
  indices : results.map UnitResult.index = List.range results.length
  counted : after.unitCount = results.length
  outcomes : ∀ result ∈ results,
    result.record?.isSome ∧ result.error? = none ∨ result.record? = none ∧ result.error?.isSome
  types : (after.typeCounts.map Prod.snd).sum =
    results.countP fun result => result.unit.bytes ≠ []
  logged : after.issues.length = results.countP (·.error?.isSome) + (calls.map Call.breaks).sum
  total : after.summary.issues.total = after.issues.length
  listed : after.summary.issues.issues.length = after.summary.issues.total
  kinds : (after.summary.issues.kinds.map Prod.snd).sum = after.summary.issues.total
  severities : (after.summary.issues.severities.map Prod.snd).sum = after.summary.issues.total
  ofKinds : ∀ kind, (after.summary.issues.kinds.lookup kind).getD 0 =
    after.issues.countP (·.kind = kind)
  ofSeverities : ∀ severity, (after.summary.issues.severities.lookup severity).getD 0 =
    after.issues.countP (·.severity = severity)

/-- **The accounts agree.** If all errors are ones that a stream can cause, any calls come to their
end. Their results are those of the units that they framed, numbered in order; the counts are counts
of them; and the issues are those of the results that have an error and of the breaks of samples, in
the order in which the units and the breaks came. -/
theorem analysis_accounts_agree (sets : ParamSets) (updateSets : Bool) (calls : List Call)
    (hchecked : ∀ outcome ∈ outcomes updateSets sets (frameAll {} calls).1,
      CheckedOutcome outcome) :
    ∃ results after, performAll calls { sets, updateSets } = .ok results after ∧
      AccountsAgree calls (notes updateSets 0 sets (framedAll {} calls)) results after := by
  have hrun := @performAll_of_checked { sets, updateSets } calls hchecked
  have hresults := @filterMap_result_notes updateSets 0 sets (framedAll {} calls)
  rw [filterMap_framedAll] at hresults
  have hissues := issues_recorded { sets, updateSets } (framedAll {} calls)
  rw [List.nil_append] at hissues
  refine ⟨_, _, hrun, ?_⟩
  constructor
  case framed => exact map_framed_notes _
  case results_eq => rfl
  case issues_eq => exact hissues.symm
  case units => exact (congrArg _ hresults).trans (map_unit_unitResults _)
  case indices =>
    have hlength := congrArg List.length (@map_unit_unitResults updateSets 0 sets
      (frameAll {} calls).1)
    rw [List.length_map] at hlength
    refine (congrArg (List.map UnitResult.index) hresults).trans ?_
    rw [map_index_unitResults, ← hlength, ← hresults, ← List.range_eq_range']
    rfl
  case counted => exact (unitCount_recorded _ _).trans (Nat.zero_add _)
  case outcomes => exact fun result _ => result.record?_or_error?
  case types => exact (sum_typeCounts_recorded _ _).trans (Nat.zero_add _)
  case logged =>
    have hcount := length_issues (notes updateSets 0 sets (framedAll {} calls))
    rw [map_framed_notes, countP_framedAll] at hcount
    exact (congrArg List.length hissues).trans hcount
  case total => rfl
  case listed => rfl
  case kinds => exact IssueLog.sum_kinds _
  case severities => exact IssueLog.sum_severities _
  case ofKinds => exact IssueLog.lookup_kinds _
  case ofSeverities => exact IssueLog.lookup_severities _

/-- Calls of every sort: a stream of a delimiter, of which the end is still open; a sample of an
empty entry and a unit with an illegal escape, and one that breaks off behind a unit; an empty
unit; and the end of the stream. -/
def mixedRun : List Call :=
  [.feed [0x00, 0x00, 0x01, 0x09, 0xf0, 0x00, 0x00, 0x01, 0x09],
   .samples .four [[0, 0, 0, 0, 0, 0, 0, 5, 0x09, 0x00, 0x00, 0x03, 0x04],
     [0, 0, 0, 2, 0x09, 0x30, 0, 0, 0]],
   .units [{ bytes := [] }],
   .flush]

theorem analysis_accounts_agree_mixedRun :
    (∀ outcome ∈ outcomes true {} (frameAll {} mixedRun).1, CheckedOutcome outcome) ∧
      ∃ results after, performAll mixedRun {} = .ok results after ∧
        AccountsAgree mixedRun (notes true 0 {} (framedAll {} mixedRun)) results after := by
  have hchecked : ∀ outcome ∈ outcomes true {} (frameAll {} mixedRun).1,
      CheckedOutcome outcome := by
    decide +kernel
  exact ⟨hchecked, analysis_accounts_agree {} true mixedRun hchecked⟩

end Analyzer

end H264
