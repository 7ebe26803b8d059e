import H264.Framing.StartCode
import H264.Proofs.Rbsp.EmulationFree

/-!
# Zeros at the end of a payload

Framing takes the zeros off the end of a unit, and with them a zero that ends an escaped payload. An
escaped payload ends in a zero just if the payload ends in an odd number of zeros, for every second
zero is followed by an escape (`trimZeros_escape`). What is left is the escaped form of the payload
without its last byte: `afterTrim`.
-/

namespace H264.Rbsp

open Framing

/-! ## The count of zeros while escaping -/

/-- The count of zeros after one more byte of a payload; an escape starts it afresh. -/
def nextZeros (zeros : Nat) (byte : UInt8) : Nat :=
  if byte ≠ 0 then 0 else if zeros = 2 then 1 else zeros + 1

/-- The count of zeros after a payload. -/
def zerosAfter (payload : Bytes) : Nat :=
  payload.foldl nextZeros 0

theorem escapeAfter_cons (zeros : Nat) (byte : UInt8) (rest : Bytes) :
    escapeAfter zeros (byte :: rest) =
      (if zeros = 2 ∧ byte ≤ 3 then [escapeByte, byte] else [byte]) ++
        escapeAfter (nextZeros zeros byte) rest := by
  unfold nextZeros
  rw [escapeAfter]
  by_cases hzero : byte = 0
  · subst hzero
    by_cases htwo : zeros = 2
    · subst htwo
      rfl
    · simp [htwo]
  · by_cases hescape : zeros = 2 ∧ byte ≤ 3
    · simp [hescape, hzero]
    · simp [hescape, hzero]

/-- What is written for the beginning of a payload does not depend on the rest of it. -/
theorem escape_append (front : Bytes) :
    ∃ body, ∀ back, escape (front ++ back) = body ++ escapeAfter (zerosAfter front) back := by
  -- the count of zeros at the start is arbitrary, for it changes along the payload
  suffices h : ∀ zeros, ∃ body, ∀ back, escapeAfter zeros (front ++ back) =
      body ++ escapeAfter (front.foldl nextZeros zeros) back from h 0
  induction front with
  | nil => exact fun zeros => ⟨[], fun back => rfl⟩
  | cons byte front ih =>
    intro zeros
    obtain ⟨body, hbody⟩ := ih (nextZeros zeros byte)
    refine ⟨(if zeros = 2 ∧ byte ≤ 3 then [escapeByte, byte] else [byte]) ++ body, fun back => ?_⟩
    rw [List.cons_append, escapeAfter_cons, hbody, List.append_assoc]
    rfl

/-- The number of zeros at the end of a payload. -/
def endingZeros (payload : Bytes) : Nat :=
  (payload.reverse.takeWhile (· == 0)).length

theorem endingZeros_concat (payload : Bytes) (byte : UInt8) :
    endingZeros (payload ++ [byte]) = if byte = 0 then endingZeros payload + 1 else 0 := by
  unfold endingZeros
  rw [List.reverse_append, List.reverse_singleton, List.singleton_append, List.takeWhile_cons]
  by_cases h : byte = 0
  · subst h
    rfl
  · rw [if_neg h, if_neg (by simpa using h)]
    rfl

/-- Over a run of zeros the count goes 1, 2, 1, 2, and so on. -/
theorem zerosAfter_eq (payload : Bytes) :
    zerosAfter payload =
      if endingZeros payload = 0 then 0 else if endingZeros payload % 2 = 1 then 1 else 2 := by
  induction payload using List.reverseRecOn with
  | nil => rfl
  | append_singleton payload byte ih =>
    have hstep : zerosAfter (payload ++ [byte]) = nextZeros (zerosAfter payload) byte :=
      List.foldl_append
    rw [hstep, endingZeros_concat, ih]
    unfold nextZeros
    by_cases hbyte : byte = 0
    · rw [if_neg (not_not_intro hbyte), if_pos hbyte]
      split_ifs <;> omega
    · rw [if_pos hbyte, if_neg hbyte, if_pos rfl]

/-! ## Trimming -/

theorem trimZeros_concat_zero (bytes : Bytes) : trimZeros (bytes ++ [0]) = trimZeros bytes := by
  unfold trimZeros
  rw [List.reverse_append]
  rfl

theorem trimZeros_concat_of_ne_zero (bytes : Bytes) {byte : UInt8} (h : byte ≠ 0) :
    trimZeros (bytes ++ [byte]) = bytes ++ [byte] := by
  unfold trimZeros
  rw [List.reverse_append, List.reverse_singleton, List.singleton_append,
    List.dropWhile_cons_of_neg (by simpa using h), List.reverse_cons, List.reverse_reverse]

/-- Nothing is trimmed after a payload that ends in an even number of zeros. -/
theorem trimZeros_escape_of_even {payload : Bytes} (h : endingZeros payload % 2 = 0) :
    trimZeros (escape payload) = escape payload := by
  induction payload using List.reverseRecOn with
  | nil => rfl
  | append_singleton payload byte _ =>
    obtain ⟨body, hbody⟩ := escape_append payload
    rw [endingZeros_concat] at h
    by_cases hbyte : byte = 0
    · -- the last two zeros have an escape after them
      subst hbyte
      rw [if_pos rfl] at h
      have hcount : zerosAfter payload = 1 := by
        rw [zerosAfter_eq, if_neg (by omega), if_pos (by omega)]
      have hend : escape (payload ++ [0]) = (body ++ [0]) ++ [escapeByte] := by
        rw [hbody, hcount, List.append_assoc]
        rfl
      rw [hend]
      exact trimZeros_concat_of_ne_zero _ (by decide)
    · -- the last byte stands at the end, whether or not an escape comes before it
      have hcount : nextZeros (zerosAfter payload) byte = 0 := if_pos hbyte
      have hend : ∃ front, escape (payload ++ [byte]) = front ++ [byte] := by
        rw [hbody, escapeAfter_cons, hcount]
        by_cases hescape : zerosAfter payload = 2 ∧ byte ≤ 3
        · rw [if_pos hescape]
          exact ⟨body ++ [escapeByte], by rw [List.append_assoc]; rfl⟩
        · rw [if_neg hescape]
          exact ⟨body, rfl⟩
      obtain ⟨front, hfront⟩ := hend
      rw [hfront]
      exact trimZeros_concat_of_ne_zero front hbyte

/-- After a payload that ends in an even number of zeros one more zero needs no escape. -/
theorem escape_concat_zero {payload : Bytes} (h : endingZeros payload % 2 = 0) :
    escape (payload ++ [0]) = escape payload ++ [0] := by
  obtain ⟨body, hbody⟩ := escape_append payload
  have hpayload := hbody []
  rw [List.append_nil] at hpayload
  rw [hbody, hpayload, zerosAfter_eq]
  by_cases hzero : endingZeros payload = 0
  · rw [if_pos hzero, List.append_assoc]
    rfl
  · have hodd : ¬endingZeros payload % 2 = 1 := by omega
    rw [if_neg hzero, if_neg hodd, List.append_assoc]
    rfl

/-- The payload that is left when the zeros at the end of its escaped form are lost. -/
def afterTrim (payload : Bytes) : Bytes :=
  if endingZeros payload % 2 = 0 then payload else payload.dropLast

/-- **What trimming leaves.** Trimming an escaped payload takes one zero off the payload where it
ends in an odd number of zeros, and nothing else. -/
theorem trimZeros_escape (payload : Bytes) :
    trimZeros (escape payload) = escape (afterTrim payload) := by
  unfold afterTrim
  by_cases heven : endingZeros payload % 2 = 0
  · rw [if_pos heven]
    exact trimZeros_escape_of_even heven
  · rw [if_neg heven]
    induction payload using List.reverseRecOn with
    | nil => exact absurd rfl heven
    | append_singleton payload byte _ =>
      rw [endingZeros_concat] at heven
      by_cases hbyte : byte = 0
      · subst hbyte
        rw [if_pos rfl] at heven
        have hfront : endingZeros payload % 2 = 0 := by omega
        rw [List.dropLast_concat, escape_concat_zero hfront, trimZeros_concat_zero]
        exact trimZeros_escape_of_even hfront
      · rw [if_neg hbyte] at heven
        exact absurd rfl heven

end H264.Rbsp
