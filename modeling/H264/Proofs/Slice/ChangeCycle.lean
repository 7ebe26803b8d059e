import H264.Proofs.Faults.Overwide
import Mathlib.Analysis.SpecialFunctions.Log.Base

/-!
# The width of a change cycle

How far evolving slice groups have come is sent in as many bits as the cycles ask for. The width is
found by counting up, the greatest cycle by a division of integers, and the format gives both as one
expression of the exact quotient of the picture's size by the rate of change.

* `countsTo_iff` — the count comes to its end, and where it does;
* `groupChangeCycleBits_eq_ceil`, `maxGroupChangeCycle_eq_ceil` — the two roundings of the quotient;
* **`change_cycle_width`** — the width is the least one that holds every cycle.
-/

namespace H264.SliceHeader

/-! ## Counting up -/

/-- Counting up from `bits`, as long as that many bits give too few cycles, ends with `width`. -/
inductive CountsTo (size rate : Nat) : (bits width : Nat) → Prop
  | stop {bits : Nat} (h : size + rate ≤ rate * 2 ^ bits) : CountsTo size rate bits bits
  | next {bits width : Nat} (h : rate * 2 ^ bits < size + rate)
      (rest : CountsTo size rate (bits + 1) width) : CountsTo size rate bits width

namespace CountsTo

variable {size rate bits width other : Nat}

/-- The count ends in one place only. -/
theorem unique (h : CountsTo size rate bits width) (hother : CountsTo size rate bits other) :
    width = other := by
  induction h with
  | stop henough =>
    cases hother with
    | stop => rfl
    | next hfew => exact absurd henough (Nat.not_le.mpr hfew)
  | next hfew _ ih =>
    cases hother with
    | stop henough => exact absurd henough (Nat.not_le.mpr hfew)
    | next _ hrest => exact ih hrest

/-- A search whose last width is enough goes the way of the count. -/
theorem leastWidth {fuel : Nat} (h : size + rate ≤ rate * 2 ^ (bits + fuel)) :
    CountsTo size rate bits (leastWidth size rate fuel bits) := by
  induction fuel generalizing bits with
  | zero => exact .stop h
  | succ fuel ih =>
    unfold SliceHeader.leastWidth
    rw [Nat.shiftLeft_eq]
    by_cases henough : size + rate ≤ rate * 2 ^ bits
    · rw [if_pos henough]
      exact .stop henough
    · rw [if_neg henough]
      refine .next (Nat.not_le.mp henough) (ih ?_)
      rwa [Nat.succ_add_eq_add_succ]

end CountsTo

/-- The count from zero comes to its end, with the width of a change cycle. -/
theorem countsTo_iff {size rate : Nat} (hrate : 0 < rate) (width : Nat) :
    CountsTo size rate 0 width ↔ width = groupChangeCycleBits size rate := by
  have hends : CountsTo size rate 0 (groupChangeCycleBits size rate) :=
    .leastWidth (fits_lastWidth size hrate)
  constructor
  · intro h
    exact h.unique hends
  · rintro rfl
    exact hends

/-! ## Roundings of the exact quotient -/

/-- The width is the binary logarithm of the quotient and one, rounded up. -/
theorem groupChangeCycleBits_eq_ceil (size : Nat) {rate : Nat} (hrate : 0 < rate) :
    (groupChangeCycleBits size rate : Int) = ⌈Real.logb 2 ((size : Real) / rate + 1)⌉ := by
  have hpos : (0 : Real) < rate := Nat.cast_pos.mpr hrate
  have hquotient : (0 : Real) ≤ (size : Real) / rate := by positivity
  have hlog : 0 ≤ Real.logb 2 ((size : Real) / rate + 1) :=
    Real.logb_nonneg (by norm_num) (by linarith)
  rw [← Int.natCast_ceil_eq_ceil hlog, Nat.cast_inj]
  refine eq_of_forall_ge_iff fun width => ?_
  rw [groupChangeCycleBits_le_iff hrate, Nat.ceil_le,
    Real.logb_le_iff_le_rpow (by norm_num) (by linarith), Real.rpow_natCast,
    div_add_one hpos.ne', div_le_iff₀' hpos]
  exact_mod_cast Iff.rfl

theorem maxGroupChangeCycle_le_iff {size rate : Nat} (hrate : 0 < rate) (cycle : Nat) :
    maxGroupChangeCycle size rate ≤ cycle ↔ size ≤ rate * cycle := by
  unfold maxGroupChangeCycle
  rw [Nat.div_le_iff_le_mul_add_pred hrate]
  omega

/-- The greatest cycle is the quotient, rounded up. -/
theorem maxGroupChangeCycle_eq_ceil (size : Nat) {rate : Nat} (hrate : 0 < rate) :
    (maxGroupChangeCycle size rate : Int) = ⌈(size : Rat) / rate⌉ := by
  have hpos : (0 : Rat) < rate := Nat.cast_pos.mpr hrate
  have hquotient : (0 : Rat) ≤ (size : Rat) / rate := by positivity
  rw [← Int.natCast_ceil_eq_ceil hquotient, Nat.cast_inj]
  refine eq_of_forall_ge_iff fun cycle => ?_
  rw [maxGroupChangeCycle_le_iff hrate, Nat.ceil_le, div_le_iff₀' hpos]
  exact_mod_cast Iff.rfl

/-! ## The least width that holds every cycle -/

theorem maxGroupChangeCycle_lt_iff {size rate : Nat} (hrate : 0 < rate) (width : Nat) :
    maxGroupChangeCycle size rate < 2 ^ width ↔ groupChangeCycleBits size rate ≤ width := by
  rw [groupChangeCycleBits_le_iff hrate, Nat.lt_iff_le_pred (Nat.two_pow_pos width),
    maxGroupChangeCycle_le_iff hrate, Nat.mul_sub_one]
  have hrates : rate ≤ rate * 2 ^ width := Nat.le_mul_of_pos_right rate (Nat.two_pow_pos width)
  omega

theorem fits_u_iff {width value : Nat} : (Element.u width value).Fits ↔ value < 2 ^ width := by
  simp [Element.Fits, Nat.one_shiftLeft]

/-- **The width of a change cycle.** Counting up from zero comes to its end, with the binary
logarithm of the exact quotient of size by rate and one, rounded up. That is the least width in
which the greatest cycle, this quotient rounded up, has a number: every cycle can be sent in so many
bits, and the greatest cannot in fewer. -/
theorem change_cycle_width (size : Nat) {rate : Nat} (hrate : 1 ≤ rate) :
    (∀ width, CountsTo size rate 0 width ↔ width = groupChangeCycleBits size rate) ∧
    (groupChangeCycleBits size rate : Int) = ⌈Real.logb 2 ((size : Real) / rate + 1)⌉ ∧
    (maxGroupChangeCycle size rate : Int) = ⌈(size : Rat) / rate⌉ ∧
    IsLeast {width | maxGroupChangeCycle size rate < 2 ^ width} (groupChangeCycleBits size rate) ∧
    (∀ cycle ≤ maxGroupChangeCycle size rate,
      (Element.u (groupChangeCycleBits size rate) cycle).Fits) ∧
    ∀ width < groupChangeCycleBits size rate,
      ¬(Element.u width (maxGroupChangeCycle size rate)).Fits := by
  have hholds : ∀ width, maxGroupChangeCycle size rate < 2 ^ width ↔
      groupChangeCycleBits size rate ≤ width := maxGroupChangeCycle_lt_iff hrate
  refine ⟨countsTo_iff hrate, groupChangeCycleBits_eq_ceil size hrate,
    maxGroupChangeCycle_eq_ceil size hrate, ⟨?_, ?_⟩, ?_, ?_⟩
  · exact (hholds _).mpr le_rfl
  · intro width hwidth
    exact (hholds width).mp hwidth
  · intro cycle hcycle
    exact fits_u_iff.mpr (hcycle.trans_lt ((hholds _).mpr le_rfl))
  · intro width hwidth hfits
    exact absurd ((hholds width).mp (fits_u_iff.mp hfits)) (Nat.not_le.mpr hwidth)

/-- A quotient just above seven, which rounds up to eight: three bits hold what is below. -/
theorem change_cycle_width_aboveSeven :
    CountsTo 22 3 0 4 ∧ ⌈Real.logb 2 ((22 : Nat) / (3 : Nat) + 1)⌉ = 4 ∧
      maxGroupChangeCycle 22 3 = 8 ∧ IsLeast {width | 8 < 2 ^ width} 4 := by
  have hrate : 1 ≤ 3 := by decide
  obtain ⟨hcount, hlog, -, hleast, -⟩ := change_cycle_width 22 hrate
  exact ⟨(hcount 4).mpr rfl, hlog.symm, rfl, hleast⟩

end H264.SliceHeader
