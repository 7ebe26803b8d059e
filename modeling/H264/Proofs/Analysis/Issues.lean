import H264.Issue
import Mathlib.Algebra.Order.Ring.Nat

/-!
# Counts of issues

Counting the issues of a log by kind or by severity accounts for every issue: `IssueLog.sum_kinds`,
`IssueLog.sum_severities`; and each count is that of the issues of its kind or severity:
`IssueLog.lookup_kinds`, `IssueLog.lookup_severities`.
-/

namespace H264

section Counts

variable {α : Type} [DecidableEq α]

/-- One more of a key is one more in all. -/
theorem sum_countOne (counts : List (α × Nat)) (key : α) :
    ((countOne counts key).map Prod.snd).sum = (counts.map Prod.snd).sum + 1 := by
  induction counts with
  | nil => rfl
  | cons first rest ih =>
    obtain ⟨other, count⟩ := first
    rw [countOne]
    by_cases h : other = key
    · rw [if_pos h]
      simp only [List.map_cons, List.sum_cons]
      omega
    · rw [if_neg h]
      simp only [List.map_cons, List.sum_cons, ih]
      omega

theorem sum_foldl_countOne (keys : List α) (counts : List (α × Nat)) :
    ((keys.foldl countOne counts).map Prod.snd).sum =
      (counts.map Prod.snd).sum + keys.length := by
  induction keys generalizing counts with
  | nil => rfl
  | cons key keys ih =>
    rw [List.foldl_cons, ih, sum_countOne, List.length_cons]
    omega

theorem lookup_cons_of_ne {key other : α} (h : other ≠ key) (count : Nat)
    (rest : List (α × Nat)) : ((other, count) :: rest).lookup key = rest.lookup key := by
  rw [List.lookup_cons, beq_eq_false_iff_ne.mpr h.symm]

/-- One more of a key changes the count of this key alone. -/
theorem lookup_countOne (counts : List (α × Nat)) (key other : α) :
    ((countOne counts key).lookup other).getD 0 =
      (counts.lookup other).getD 0 + if key = other then 1 else 0 := by
  induction counts with
  | nil =>
    by_cases h : key = other
    · rw [h, if_pos rfl, countOne, List.lookup_cons_self]
      rfl
    · rw [if_neg h, countOne, lookup_cons_of_ne h, Nat.add_zero]
  | cons first rest ih =>
    obtain ⟨present, count⟩ := first
    rw [countOne]
    by_cases hkey : present = key
    · subst hkey
      rw [if_pos rfl]
      by_cases h : present = other
      · rw [h, if_pos rfl, List.lookup_cons_self, List.lookup_cons_self]
        rfl
      · rw [if_neg h, lookup_cons_of_ne h, lookup_cons_of_ne h, Nat.add_zero]
    · rw [if_neg hkey]
      by_cases h : present = other
      · rw [if_neg fun hother => hkey (h.trans hother.symm), h, List.lookup_cons_self,
          List.lookup_cons_self, Nat.add_zero]
      · rw [lookup_cons_of_ne h, lookup_cons_of_ne h, ih]

theorem lookup_foldl_countOne (keys : List α) (counts : List (α × Nat)) (other : α) :
    ((keys.foldl countOne counts).lookup other).getD 0 =
      (counts.lookup other).getD 0 + keys.count other := by
  induction keys generalizing counts with
  | nil => rfl
  | cons key keys ih =>
    rw [List.foldl_cons, ih, lookup_countOne, List.count_cons]
    simp only [beq_iff_eq]
    omega

end Counts

namespace IssueLog

variable {κ : Type}

theorem sum_kinds (log : IssueLog κ) : (log.kindCounts.map Prod.snd).sum = log.length := by
  rw [kindCounts, sum_foldl_countOne, List.length_map]
  exact Nat.zero_add _

theorem sum_severities (log : IssueLog κ) :
    (log.severityCounts.map Prod.snd).sum = log.length := by
  rw [severityCounts, sum_foldl_countOne, List.length_map]
  exact Nat.zero_add _

/-- The count of a kind is the number of its issues. -/
theorem lookup_kinds (log : IssueLog κ) (kind : IssueKind) :
    (log.kindCounts.lookup kind).getD 0 = log.countP (·.kind = kind) := by
  rw [kindCounts, lookup_foldl_countOne, List.count, List.countP_map]
  exact Nat.zero_add _

/-- The count of a severity is the number of its issues. -/
theorem lookup_severities (log : IssueLog κ) (severity : Severity) :
    (log.severityCounts.lookup severity).getD 0 = log.countP (·.severity = severity) := by
  have hstart : ((Severity.all.map (·, 0)).lookup severity).getD 0 = 0 := by
    cases severity <;> rfl
  rw [severityCounts, lookup_foldl_countOne, hstart, List.count, List.countP_map]
  exact Nat.zero_add _

end IssueLog

end H264
