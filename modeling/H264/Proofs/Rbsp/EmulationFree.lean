import H264.Nal.Unit
import Mathlib.Data.List.Infix

/-!
# The emulation-free language

`EmulationFree` says which byte strings may stand for a payload inside a unit: none of `00 00 00`,
`00 00 01` and `00 00 02` occurs, after `00 00 03` comes the end or a byte of at most 3, and the last
two bytes are not both zero. Escaping maps payloads onto this language one to one, and unescaping
maps back:

* **into** — an escaped payload is emulation-free (`emulationFree_escape`);
* **there and back** — stripping undoes escaping (`strip_escape`);
* **back and there** — escaping undoes stripping on the language (`escape_strip`), where no fault is
  found (`fault?_eq_none`).

The escape side is by induction on the payload under the invariant that the zeros counted so far
stand before what is still to be written.
-/

namespace H264.Rbsp

/-- The byte strings that a payload may be sent as. -/
structure EmulationFree (bytes : Bytes) : Prop where
  no_low : ∀ third < 3, ¬[0, 0, third] <:+: bytes
  after_escape : ∀ next, [0, 0, 3, next] <:+: bytes → next ≤ 3
  ending : ¬[0, 0] <:+ bytes

namespace EmulationFree

/-! ## One byte at a time -/

theorem nil : EmulationFree [] := by
  refine ⟨?_, ?_, ?_⟩
  · intro third _ h
    exact absurd (List.infix_nil.mp h) (by simp)
  · intro next h
    exact absurd (List.infix_nil.mp h) (by simp)
  · intro h
    exact absurd (List.suffix_nil.mp h) (by simp)

theorem tail {byte : UInt8} {rest : Bytes} (h : EmulationFree (byte :: rest)) :
    EmulationFree rest where
  no_low third hlow hoccurs := h.no_low third hlow (List.infix_cons hoccurs)
  after_escape next hoccurs := h.after_escape next (List.infix_cons hoccurs)
  ending hends := h.ending (hends.trans (List.suffix_cons byte rest))

/-- A byte may be put in front where no sequence that is ruled out begins with it. -/
theorem cons {byte : UInt8} {rest : Bytes} (h : EmulationFree rest)
    (hlow : ∀ third < 3, ¬[0, 0, third] <+: byte :: rest)
    (hescape : ∀ next, [0, 0, 3, next] <+: byte :: rest → next ≤ 3)
    (hends : byte :: rest ≠ [0, 0]) : EmulationFree (byte :: rest) where
  no_low third hthird hoccurs := by
    rcases List.infix_cons_iff.mp hoccurs with hhere | hlater
    · exact hlow third hthird hhere
    · exact h.no_low third hthird hlater
  after_escape next hoccurs := by
    rcases List.infix_cons_iff.mp hoccurs with hhere | hlater
    · exact hescape next hhere
    · exact h.after_escape next hlater
  ending hsuffix := by
    rcases List.suffix_cons_iff.mp hsuffix with hall | hlater
    · exact hends hall.symm
    · exact h.ending hlater

theorem cons_of_ne_zero {byte : UInt8} {rest : Bytes} (hbyte : byte ≠ 0) (h : EmulationFree rest) :
    EmulationFree (byte :: rest) := by
  refine h.cons ?_ ?_ ?_
  · intro third _ hstarts
    exact hbyte (List.cons_prefix_cons.mp hstarts).1.symm
  · intro next hstarts
    exact absurd (List.cons_prefix_cons.mp hstarts).1.symm hbyte
  · intro hall
    exact hbyte (List.cons.inj hall).1

theorem zero_cons {byte : UInt8} {rest : Bytes} (hbyte : byte ≠ 0)
    (h : EmulationFree (byte :: rest)) : EmulationFree (0 :: byte :: rest) := by
  refine h.cons ?_ ?_ ?_
  · intro third _ hstarts
    exact hbyte (List.cons_prefix_cons.mp (List.cons_prefix_cons.mp hstarts).2).1.symm
  · intro next hstarts
    exact absurd (List.cons_prefix_cons.mp (List.cons_prefix_cons.mp hstarts).2).1.symm hbyte
  · intro hall
    exact hbyte (List.cons.inj (List.cons.inj hall).2).1

/-- Two zeros may stand before an escape, and before any byte that needs none. -/
theorem zero_zero_cons {byte : UInt8} {rest : Bytes} (hbyte : 3 ≤ byte)
    (hescape : byte = 3 → ∀ next ∈ rest.head?, next ≤ 3) (h : EmulationFree (byte :: rest)) :
    EmulationFree (0 :: 0 :: byte :: rest) := by
  have hne : byte ≠ 0 := by
    rintro rfl
    exact absurd hbyte (by decide)
  refine (h.zero_cons hne).cons ?_ ?_ ?_
  · intro third hthird hstarts
    simp only [List.cons_prefix_cons, List.nil_prefix, and_true, true_and] at hstarts
    subst hstarts
    exact absurd hthird (UInt8.not_lt.mpr hbyte)
  · intro next hstarts
    simp only [List.cons_prefix_cons, true_and] at hstarts
    obtain ⟨hthree, tail, htail⟩ := hstarts
    exact hescape hthree.symm next (by simp [← htail])
  · simp

end EmulationFree

/-! ## Escaping -/

/-- The zeros counted so far and the escaped form of what follows them. -/
def written (zeros : Nat) (payload : Bytes) : Bytes :=
  List.replicate zeros 0 ++ escapeAfter zeros payload

theorem written_zero_cons {zeros : Nat} (hzeros : zeros < 2) (rest : Bytes) :
    written zeros (0 :: rest) = written (zeros + 1) rest := by
  have hne : ¬(zeros = 2 ∧ (0 : UInt8) ≤ 3) := by omega
  rw [written, written, escapeAfter, if_neg hne, if_pos rfl, List.replicate_succ',
    List.append_assoc]
  rfl

theorem written_cons_of_ne_zero {zeros : Nat} (hzeros : zeros < 2) {byte : UInt8} (hbyte : byte ≠ 0)
    (rest : Bytes) :
    written zeros (byte :: rest) = List.replicate zeros 0 ++ byte :: written 0 rest := by
  have hne : ¬(zeros = 2 ∧ byte ≤ 3) := by omega
  rw [written, escapeAfter, if_neg hne, if_neg hbyte]
  rfl

/-- After two zeros a low byte is escaped and counts afresh. -/
theorem written_two_low {byte : UInt8} (hbyte : byte ≤ 3) (rest : Bytes) :
    written 2 (byte :: rest) = 0 :: 0 :: 3 :: written 0 (byte :: rest) := by
  have hfresh : ¬(0 = 2 ∧ byte ≤ 3) := by omega
  rw [written, written, escapeAfter, if_pos ⟨rfl, hbyte⟩, escapeAfter, if_neg hfresh]
  rfl

theorem written_two_high {byte : UInt8} (hbyte : ¬byte ≤ 3) (rest : Bytes) :
    written 2 (byte :: rest) = 0 :: 0 :: byte :: written 0 rest := by
  have hne : byte ≠ 0 := by
    rintro rfl
    exact hbyte (by decide)
  rw [written, escapeAfter, if_neg (fun h => hbyte h.2), if_neg hne]
  rfl

/-- Induction on a payload as it is escaped: a zero is counted, another byte ends the count, and
after two zeros a low byte is escaped first. -/
theorem written_induction {motive : Nat → Bytes → Prop}
    (nil : ∀ zeros ≤ 2, motive zeros [])
    (count : ∀ zeros < 2, ∀ rest, motive (zeros + 1) rest → motive zeros (0 :: rest))
    (other : ∀ zeros < 2, ∀ byte rest, byte ≠ 0 → motive 0 rest → motive zeros (byte :: rest))
    (low : ∀ byte rest, byte ≤ 3 → motive 0 (byte :: rest) → motive 2 (byte :: rest))
    (high : ∀ byte rest, ¬byte ≤ 3 → motive 0 rest → motive 2 (byte :: rest))
    {zeros : Nat} (hzeros : zeros ≤ 2) (payload : Bytes) : motive zeros payload := by
  induction payload generalizing zeros with
  | nil => exact nil zeros hzeros
  | cons byte rest ih =>
    have hfew : ∀ zeros < 2, motive zeros (byte :: rest) := by
      intro zeros hlt
      by_cases hbyte : byte = 0
      · subst hbyte
        exact count zeros hlt rest (ih (by omega))
      · exact other zeros hlt byte rest hbyte (ih (by omega))
    rcases Nat.lt_or_eq_of_le hzeros with hlt | rfl
    · exact hfew zeros hlt
    · by_cases hbyte : byte ≤ 3
      · exact low byte rest hbyte (hfew 0 (by omega))
      · exact high byte rest hbyte (ih (by omega))

theorem head?_written_low {byte : UInt8} (rest : Bytes) :
    (written 0 (byte :: rest)).head? = some byte := by
  have hfresh : ¬(0 = 2 ∧ byte ≤ 3) := by omega
  rw [written, escapeAfter, if_neg hfresh]
  rfl

theorem emulationFree_written {zeros : Nat} (hzeros : zeros ≤ 2) (payload : Bytes) :
    EmulationFree (written zeros payload) := by
  refine written_induction (motive := fun zeros payload => EmulationFree (written zeros payload))
    ?nil ?count ?other ?low ?high hzeros payload
  case nil =>
    intro zeros hzeros
    have hone : EmulationFree [0] := EmulationFree.nil.cons (by simp) (by simp) (by simp)
    have hthree : EmulationFree [3] := EmulationFree.nil.cons_of_ne_zero (by decide)
    match zeros, hzeros with
    | 0, _ => exact EmulationFree.nil
    | 1, _ => exact hone
    | 2, _ => exact hthree.zero_zero_cons (by decide) (by simp)
  case count =>
    intro zeros hlt rest ih
    rw [written_zero_cons hlt]
    exact ih
  case other =>
    intro zeros hlt byte rest hbyte ih
    rw [written_cons_of_ne_zero hlt hbyte]
    match zeros, hlt with
    | 0, _ => exact ih.cons_of_ne_zero hbyte
    | 1, _ => exact (ih.cons_of_ne_zero hbyte).zero_cons hbyte
  case low =>
    intro byte rest hbyte ih
    rw [written_two_low hbyte]
    -- the byte that the escape is for comes after it, and that byte is low
    refine (ih.cons_of_ne_zero (by decide)).zero_zero_cons (by decide) ?_
    intro _ next hnext
    rw [head?_written_low] at hnext
    obtain rfl := Option.some.inj hnext
    exact hbyte
  case high =>
    intro byte rest hbyte ih
    have hthree : 3 < byte := UInt8.not_le.mp hbyte
    rw [written_two_high hbyte]
    refine (ih.cons_of_ne_zero ?_).zero_zero_cons (UInt8.le_of_lt hthree) ?_
    · rintro rfl
      exact absurd hthree (by decide)
    · rintro rfl
      exact absurd hthree (by decide)

/-- An escaped payload is emulation-free. -/
theorem emulationFree_escape (payload : Bytes) : EmulationFree (escape payload) :=
  emulationFree_written (Nat.zero_le 2) payload

/-! ## Stripping -/

/-- No escape begins at a byte that is not zero, nor less than two zeros before one, nor two zeros
before one that is no escape. -/
theorem strip_zeros_cons {zeros : Nat} (hzeros : zeros ≤ 2) {byte : UInt8} (hbyte : byte ≠ 0)
    (hescape : zeros = 2 → byte ≠ 3) (rest : Bytes) :
    strip (List.replicate zeros 0 ++ byte :: rest) =
      List.replicate zeros 0 ++ byte :: strip rest := by
  match zeros, hzeros with
  | 0, _ => simp [strip, hbyte]
  | 1, _ => simp [strip, hbyte, List.replicate]
  | 2, _ => simp [strip, hbyte, hescape rfl, List.replicate]

/-- Stripping undoes escaping. -/
theorem strip_written {zeros : Nat} (hzeros : zeros ≤ 2) (payload : Bytes) :
    strip (written zeros payload) = List.replicate zeros 0 ++ payload := by
  refine written_induction
    (motive := fun zeros payload => strip (written zeros payload) =
      List.replicate zeros 0 ++ payload) ?nil ?count ?other ?low ?high hzeros payload
  case nil =>
    intro zeros hzeros
    match zeros, hzeros with
    | 0, _ => rfl
    | 1, _ => rfl
    | 2, _ => rfl
  case count =>
    intro zeros hlt rest ih
    rw [written_zero_cons hlt, ih, List.replicate_succ', List.append_assoc]
    rfl
  case other =>
    intro zeros hlt byte rest hbyte ih
    rw [written_cons_of_ne_zero hlt hbyte,
      strip_zeros_cons (by omega) hbyte (fun htwo => absurd htwo (by omega)), ih]
    rfl
  case low =>
    intro byte rest hbyte ih
    rw [written_two_low hbyte, strip, ih]
    rfl
  case high =>
    intro byte rest hbyte ih
    have hthree : 3 < byte := UInt8.not_le.mp hbyte
    have hne : byte ≠ 0 := by
      rintro rfl
      exact absurd hthree (by decide)
    have hescape : byte ≠ 3 := by
      rintro rfl
      exact absurd hthree (by decide)
    rw [written_two_high hbyte]
    exact (strip_zeros_cons (Nat.le_refl 2) hne (fun _ => hescape) _).trans (by rw [ih]; rfl)

theorem strip_escape (payload : Bytes) : strip (escape payload) = payload :=
  strip_written (Nat.zero_le 2) payload

/-! ## Faults -/

/-- Emulation-free bytes have no fault. -/
theorem fault?_eq_none (offset : Nat) {bytes : Bytes} (h : EmulationFree bytes) :
    fault? offset bytes = none := by
  fun_induction fault? offset bytes with
  | case1 offset rest =>
    exact absurd ⟨[], rest, rfl⟩ (h.no_low 0 (by decide))
  | case2 offset next rest hnext =>
    exact absurd (h.after_escape next ⟨[], rest, rfl⟩) (UInt8.not_le.mpr hnext)
  | case3 offset next rest hnext ih => exact ih h.tail.tail.tail
  | case4 offset byte rest _ _ ih => exact ih h.tail
  | case5 => rfl

theorem unescape_of_emulationFree (offset : Nat) {bytes : Bytes} (h : EmulationFree bytes) :
    unescape offset bytes = .ok (strip bytes) := by
  rw [unescape, fault?_eq_none offset h]

/-! ## Escaping what was stripped -/

/-- How emulation-free bytes begin: with a lone zero that ends them, with at most two zeros and a
byte that needs no escape after them, or with an escape. -/
theorem EmulationFree.beginning {bytes : Bytes} (h : EmulationFree bytes) :
    bytes = [] ∨ bytes = [0] ∨
      (∃ zeros byte rest, bytes = List.replicate zeros 0 ++ byte :: rest ∧ zeros ≤ 2 ∧
        byte ≠ 0 ∧ (zeros = 2 → 3 < byte)) ∨
      ∃ rest, bytes = 0 :: 0 :: 3 :: rest ∧ ∀ next ∈ rest.head?, next ≤ 3 := by
  match bytes with
  | [] => exact .inl rfl
  | [first] =>
    by_cases hfirst : first = 0
    · exact .inr (.inl (by rw [hfirst]))
    · exact .inr (.inr (.inl ⟨0, first, [], rfl, by omega, hfirst, by omega⟩))
  | first :: second :: rest =>
    by_cases hfirst : first = 0
    · subst hfirst
      by_cases hsecond : second = 0
      · subst hsecond
        right; right
        match rest with
        | [] => exact absurd (List.suffix_refl _) h.ending
        | third :: rest =>
          have hlow : ¬third < 3 := fun hlt => h.no_low third hlt ⟨[], rest, rfl⟩
          by_cases hthird : third = 3
          · subst hthird
            refine .inr ⟨rest, rfl, ?_⟩
            intro next hnext
            obtain ⟨later, rfl⟩ := List.head?_eq_some_iff.mp hnext
            exact h.after_escape next ⟨[], later, rfl⟩
          · have hhigh : 3 < third :=
              UInt8.lt_of_le_of_ne (UInt8.not_lt.mp hlow) (Ne.symm hthird)
            refine .inl ⟨2, third, rest, rfl, by omega, ?_, fun _ => hhigh⟩
            rintro rfl
            exact absurd hhigh (by decide)
      · exact .inr (.inr (.inl ⟨1, second, rest, rfl, by omega, hsecond, by omega⟩))
    · exact .inr (.inr (.inl ⟨0, first, second :: rest, rfl, by omega, hfirst, by omega⟩))

theorem EmulationFree.of_append {front back : Bytes} (h : EmulationFree (front ++ back)) :
    EmulationFree back := by
  induction front with
  | nil => exact h
  | cons byte front ih => exact ih h.tail

theorem escape_zeros_cons {zeros : Nat} (hzeros : zeros ≤ 2) {byte : UInt8} (hbyte : byte ≠ 0)
    (hescape : zeros = 2 → 3 < byte) (payload : Bytes) :
    escape (List.replicate zeros 0 ++ byte :: payload) =
      List.replicate zeros 0 ++ byte :: escape payload := by
  match zeros, hzeros with
  | 0, _ => simp [escape, escapeAfter, hbyte]
  | 1, _ => simp [escape, escapeAfter, hbyte, List.replicate]
  | 2, _ =>
    have hhigh : ¬byte ≤ 3 := UInt8.not_le.mpr (hescape rfl)
    simp [escape, escapeAfter, hbyte, hhigh, List.replicate]

/-- What follows two zeros that stand before an escape. -/
theorem escape_zero_zero {payload : Bytes} (h : ∀ next ∈ payload.head?, next ≤ 3) :
    escape (0 :: 0 :: payload) = 0 :: 0 :: 3 :: escape payload := by
  have hwritten : escape (0 :: 0 :: payload) = written 2 payload := by
    show written 0 (0 :: 0 :: payload) = _
    rw [written_zero_cons (by omega), written_zero_cons (by omega)]
  rw [hwritten]
  match payload with
  | [] => rfl
  | next :: rest => exact written_two_low (h next rfl) rest

theorem head?_strip (bytes : Bytes) : (strip bytes).head? = bytes.head? := by
  fun_cases strip bytes with
  | case1 => rfl
  | case2 => rfl
  | case3 => rfl

/-- Escaping undoes stripping on the language. -/
theorem escape_strip {bytes : Bytes} (h : EmulationFree bytes) : escape (strip bytes) = bytes := by
  -- on the length, for up to three bytes are written at once
  induction hlen : bytes.length using Nat.strongRecOn generalizing bytes with
  | ind n ih =>
    rcases h.beginning with rfl | rfl | ⟨zeros, byte, rest, rfl, hzeros, hbyte, hhigh⟩ |
        ⟨rest, rfl, hnext⟩
    · rfl
    · rfl
    · have hrest : escape (strip rest) = rest :=
        ih rest.length (by simp at hlen; omega) h.of_append.tail rfl
      have hescape : zeros = 2 → byte ≠ 3 := by
        rintro htwo rfl
        exact absurd (hhigh htwo) (by decide)
      rw [strip_zeros_cons hzeros hbyte hescape, escape_zeros_cons hzeros hbyte hhigh, hrest]
    · have hrest : escape (strip rest) = rest :=
        ih rest.length (by simp at hlen; omega) h.tail.tail.tail rfl
      rw [strip, escape_zero_zero (by rwa [head?_strip]), hrest]

/-! ## One to one -/

/-- A payload without a header is the unit's bytes. -/
theorem rbspAfter_fixed_zero (unit : NalUnit) :
    unit.rbspAfter (.fixed 0) = unescape unit.start unit.bytes := by
  simp [NalUnit.rbspAfter, NalUnit.escapedPayload, NalUnit.headerBytes]

/-- A payload that was escaped and put behind a header comes out of the unit. -/
theorem rbsp_of_bytes {unit : NalUnit} {front payload : Bytes}
    (hbytes : unit.bytes = front ++ escape payload)
    (hheader : unit.headerBytes .byType = front.length) : unit.rbsp = .ok payload := by
  have hcount : min front.length (front ++ escape payload).length = front.length := by
    rw [List.length_append]
    omega
  unfold NalUnit.rbsp NalUnit.rbspAfter NalUnit.escapedPayload
  rw [hheader, hbytes, hcount]
  dsimp only
  rw [List.drop_left, unescape_of_emulationFree _ (emulationFree_escape _), strip_escape]

/-- Escaping and unescaping are inverse to each other, between all payloads and the emulation-free
bytes. Wherever the bytes stand in a buffer, neither direction fails. -/
theorem escape_unescape_inverse (start : Nat) :
    (∀ payload, EmulationFree (escape payload) ∧
      NalUnit.rbspAfter { start, bytes := escape payload } (.fixed 0) = .ok payload) ∧
      ∀ escaped, EmulationFree escaped →
        ∃ payload, NalUnit.rbspAfter { start, bytes := escaped } (.fixed 0) = .ok payload ∧
          escape payload = escaped := by
  refine ⟨?_, ?_⟩
  · intro payload
    have hfree := emulationFree_escape payload
    refine ⟨hfree, ?_⟩
    rw [rbspAfter_fixed_zero, unescape_of_emulationFree start hfree, strip_escape]
  · intro escaped hfree
    refine ⟨strip escaped, ?_, escape_strip hfree⟩
    rw [rbspAfter_fixed_zero, unescape_of_emulationFree start hfree]

/-- Four zeros: an escape between them and one that ends the bytes. -/
theorem escape_unescape_inverse_zeros :
    EmulationFree [0, 0, 3, 0, 0, 3] ∧
      ∃ payload, NalUnit.rbspAfter { start := 0, bytes := [0, 0, 3, 0, 0, 3] } (.fixed 0) =
          .ok payload ∧
        escape payload = [0, 0, 3, 0, 0, 3] := by
  have hfree : EmulationFree [0, 0, 3, 0, 0, 3] := emulationFree_escape [0, 0, 0, 0]
  exact ⟨hfree, (escape_unescape_inverse 0).2 _ hfree⟩

end H264.Rbsp
