import H264.Bits.Codeword
import Mathlib.Algebra.Order.Ring.Nat

/-!
# Numbers in bits

Fixed-width numbers are written and read back: `toNat_ofNat` says that a number that fits its width
is read back, `ofNat_toNat` that a bit list is the writing of its value. `Codeword.ue_eq` writes an
Exp-Golomb code as its zeros, a one bit and a fixed-width number.
-/

namespace H264

namespace Bits

/-! ## The number of a bit list -/

theorem foldl_eq (bits : List Bool) (start : Nat) :
    bits.foldl (fun value bit => 2 * value + bit.toNat) start =
      start * 2 ^ bits.length + toNat bits := by
  induction bits generalizing start with
  | nil => simp [toNat]
  | cons bit bits ih =>
    simp only [List.foldl_cons, List.length_cons, toNat] at ih ⊢
    rw [ih, ih (2 * 0 + bit.toNat)]
    simp only [Nat.pow_succ, Nat.mul_zero, Nat.zero_add, Nat.add_mul]
    rw [Nat.mul_comm 2 start, Nat.mul_assoc, Nat.mul_comm 2, Nat.add_assoc]

theorem toNat_cons (bit : Bool) (bits : List Bool) :
    toNat (bit :: bits) = bit.toNat * 2 ^ bits.length + toNat bits := by
  rw [toNat, List.foldl_cons, foldl_eq]
  simp

theorem toNat_append (front back : List Bool) :
    toNat (front ++ back) = toNat front * 2 ^ back.length + toNat back := by
  rw [toNat, List.foldl_append, foldl_eq, ← toNat]

theorem toNat_lt (bits : List Bool) : toNat bits < 2 ^ bits.length := by
  induction bits with
  | nil => exact Nat.one_pos
  | cons bit bits ih =>
    rw [toNat_cons, List.length_cons, Nat.pow_succ]
    cases bit <;> simp <;> omega

/-! ## Fixed widths -/

/-- Reading back a fixed-width number gives its low bits. -/
theorem toNat_ofNat_mod (width value : Nat) : toNat (ofNat width value) = value % 2 ^ width := by
  induction width with
  | zero => simp [ofNat, toNat, Nat.mod_one]
  | succ width ih =>
    rw [ofNat, toNat_cons, length_ofNat, ih, Nat.mod_pow_succ, Nat.add_comm, Nat.mul_comm,
      Nat.toNat_testBit]

theorem toNat_ofNat {width value : Nat} (h : value < 2 ^ width) :
    toNat (ofNat width value) = value := by
  rw [toNat_ofNat_mod, Nat.mod_eq_of_lt h]

/-- A bit list is the fixed-width writing of the number it stands for. -/
theorem ofNat_toNat (bits : List Bool) : ofNat bits.length (toNat bits) = bits := by
  suffices h : ∀ n, ofNat bits.length (n * 2 ^ bits.length + toNat bits) = bits by
    simpa using h 0
  induction bits with
  | nil => intro n; rfl
  | cons bit bits ih =>
    intro n
    rw [List.length_cons, ofNat, toNat_cons, Nat.pow_succ]
    have hsplit : n * (2 ^ bits.length * 2) + (bit.toNat * 2 ^ bits.length + toNat bits) =
        (2 * n + bit.toNat) * 2 ^ bits.length + toNat bits := by
      rw [Nat.add_mul, Nat.mul_comm (2 ^ bits.length) 2, ← Nat.mul_assoc, Nat.mul_comm n 2]
      omega
    rw [hsplit, ih (2 * n + bit.toNat)]
    congr 1
    rw [Nat.testBit_eq_decide_div_mod_eq, Nat.mul_comm, Nat.mul_add_div (Nat.two_pow_pos _),
      Nat.div_eq_of_lt (toNat_lt bits)]
    cases bit with
    | false =>
      show decide ((2 * n + 0 + 0) % 2 = 1) = false
      exact decide_eq_false (by omega)
    | true =>
      show decide ((2 * n + 1 + 0) % 2 = 1) = true
      exact decide_eq_true (by omega)

/-- Only the low bits of a number are written. -/
theorem ofNat_mod (width value : Nat) : ofNat width (value % 2 ^ width) = ofNat width value := by
  have := ofNat_toNat (ofNat width value)
  rwa [length_ofNat, toNat_ofNat_mod] at this

/-! ## Parts -/

theorem toNat_append_shiftRight (front back : List Bool) :
    toNat (front ++ back) >>> back.length = toNat front := by
  rw [toNat_append, Nat.shiftRight_eq_div_pow, Nat.mul_comm, Nat.mul_add_div (Nat.two_pow_pos _),
    Nat.div_eq_of_lt (toNat_lt back), Nat.add_zero]

theorem toNat_append_mod (front back : List Bool) :
    toNat (front ++ back) % 2 ^ back.length = toNat back := by
  rw [toNat_append, Nat.mul_comm, Nat.mul_add_mod, Nat.mod_eq_of_lt (toNat_lt back)]

theorem drop_ofNat (width count value : Nat) :
    (ofNat width value).drop count = ofNat (width - count) value := by
  induction width generalizing count with
  | zero => simp [ofNat]
  | succ width ih =>
    cases count with
    | zero => rfl
    | succ count => rw [ofNat, List.drop_succ_cons, ih, Nat.add_sub_add_right]

/-- Bits hold a one just if the number they write is not zero. -/
theorem any_eq_toNat (bits : List Bool) : bits.any id = (toNat bits != 0) := by
  induction bits with
  | nil => rfl
  | cons bit bits ih =>
    rw [List.any_cons, ih, toNat_cons]
    cases bit <;> simp

end Bits

namespace Codeword

/-- After its zeros an Exp-Golomb code has a one bit and then the rest of the binary number. -/
theorem ue_eq (value : Nat) :
    ue value = List.replicate (Nat.log2 (value + 1)) false ++
      true :: Bits.ofNat (Nat.log2 (value + 1)) (value + 1 - 2 ^ Nat.log2 (value + 1)) := by
  have hle : 2 ^ Nat.log2 (value + 1) ≤ value + 1 := Nat.log2_self_le (by omega)
  have hlt : value + 1 < 2 ^ (Nat.log2 (value + 1) + 1) := Nat.lt_log2_self
  have htop : (value + 1).testBit (Nat.log2 (value + 1)) = true := Nat.testBit_log2 (by omega)
  have hmod : (value + 1) % 2 ^ Nat.log2 (value + 1) = value + 1 - 2 ^ Nat.log2 (value + 1) := by
    rw [Nat.mod_eq_sub_mod hle, Nat.mod_eq_of_lt]
    rw [Nat.pow_succ] at hlt
    omega
  rw [ue, Bits.ofNat, htop, ← hmod, Bits.ofNat_mod]

/-- A two's complement code is read as the value that it was made of. -/
theorem signedOfPattern_mod {width : Nat} {value : Int} (hwidth : 0 < width)
    (hleast : -2 ^ (width - 1) ≤ value) (hgreatest : value < 2 ^ (width - 1)) :
    signedOfPattern width (value % (1 <<< width : Nat)).toNat = value := by
  obtain ⟨low, rfl⟩ : ∃ low, width = low + 1 := ⟨width - 1, by omega⟩
  have hpow : ((1 <<< (low + 1) : Nat) : Int) = 2 * 2 ^ low := by
    rw [Nat.one_shiftLeft, Nat.pow_succ, Nat.mul_comm]
    push_cast
    rfl
  have hhalf : ((2 ^ low : Nat) : Int) = 2 ^ low := by push_cast; rfl
  rw [Nat.add_sub_cancel] at hleast hgreatest
  have hpos : 0 < 2 ^ low := Nat.two_pow_pos low
  unfold signedOfPattern
  rw [Nat.add_sub_cancel, hpow]
  by_cases hsign : value < 0
  · -- a negative value has the sign bit set
    have hmod : value % (2 * 2 ^ low) = value + 2 * 2 ^ low := by
      rw [← Int.add_emod_right, Int.emod_eq_of_lt (by omega) (by omega)]
    have hpattern : (value + 2 * 2 ^ low).toNat = 2 ^ low + (value + 2 ^ low).toNat := by omega
    have hbit : (value + 2 * 2 ^ low).toNat.testBit low = true := by
      rw [hpattern, Nat.testBit_two_pow_add_eq, Nat.testBit_lt_two_pow (by omega), Bool.not_false]
    rw [hmod, if_pos ⟨Nat.succ_pos low, hbit⟩]
    omega
  · have hmod : value % (2 * 2 ^ low) = value := Int.emod_eq_of_lt (by omega) (by omega)
    have hbit : ¬value.toNat.testBit low = true := by
      rw [Nat.testBit_lt_two_pow (by omega)]
      exact Bool.false_ne_true
    rw [hmod, if_neg fun h => hbit h.2]
    omega

theorem natCast_one_shiftLeft (count : Nat) : ((1 <<< count : Nat) : Int) = 2 ^ count := by
  rw [Nat.one_shiftLeft]
  push_cast
  rfl

/-- The top bit of a pattern counts negatively. -/
theorem signedOfPattern_succ {low pattern : Nat} (h : pattern < 2 ^ (low + 1)) :
    signedOfPattern (low + 1) pattern =
      if 2 ^ low ≤ pattern then (pattern : Int) - 2 ^ (low + 1) else pattern := by
  unfold signedOfPattern
  rw [Nat.add_sub_cancel, natCast_one_shiftLeft]
  by_cases htop : 2 ^ low ≤ pattern
  · have hbit := Nat.testBit_of_two_pow_le_and_two_pow_add_one_gt htop h
    rw [if_pos htop, if_pos ⟨Nat.succ_pos low, hbit⟩]
  · have hbit : ¬pattern.testBit low = true := by
      rw [Nat.testBit_lt_two_pow (Nat.not_le.mp htop)]
      exact Bool.false_ne_true
    rw [if_neg htop, if_neg fun hset => hbit hset.2]

/-- The value of a pattern is one of its width. -/
theorem signedOfPattern_range {width pattern : Nat} (hwidth : 0 < width)
    (h : pattern < 2 ^ width) :
    -2 ^ (width - 1) ≤ signedOfPattern width pattern ∧
      signedOfPattern width pattern < 2 ^ (width - 1) := by
  obtain ⟨low, rfl⟩ : ∃ low, width = low + 1 := ⟨width - 1, by omega⟩
  have hhalf : ((2 ^ low : Nat) : Int) = 2 ^ low := by push_cast; rfl
  rw [signedOfPattern_succ h, Nat.add_sub_cancel, Int.pow_succ, ← hhalf]
  rw [Nat.pow_succ] at h
  split <;> omega

/-- The code of a pattern's value is the pattern. -/
theorem twosComplement_signedOfPattern {width pattern : Nat} (h : pattern < 2 ^ width) :
    twosComplement width (signedOfPattern width pattern) = Bits.ofNat width pattern := by
  cases width with
  | zero => rfl
  | succ low =>
    have hlt : (pattern : Int) < 2 ^ (low + 1) := by exact_mod_cast h
    unfold twosComplement
    rw [signedOfPattern_succ h, natCast_one_shiftLeft]
    split
    · rw [Int.sub_emod_right, Int.emod_eq_of_lt (Int.natCast_nonneg pattern) hlt, Int.toNat_natCast]
    · rw [Int.emod_eq_of_lt (Int.natCast_nonneg pattern) hlt, Int.toNat_natCast]

end Codeword

end H264
