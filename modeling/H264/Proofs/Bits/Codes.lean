import H264.Proofs.Bits.Accepted
import H264.Proofs.Bits.Cursor
import H264.Proofs.Bits.Written

/-!
# Exp-Golomb codes

A reader finds a code by counting zeros, and the data may end at any place of it. What it makes of
the bits ahead is said here of these bits alone: `Codeword.Overlong` are more zeros than a code
begins with, `Codeword.Next` is a whole code, and anything else is a code that is cut off. A writer
makes the same bits of the value again, so that a value has one code and no code begins another.

* `Move.code_of_overlong`, `Move.code_of_next`, `Move.code_of_cut` — the three outcomes;
* `Reads.eq_of_isPrefix` — bits that are taken whatever follows do not begin others;
* `Canonical.of_element` — an element that is accepted as it is written has one code;
* **`exp_golomb_canonical`** — both of the unsigned and of the signed code.
-/

namespace H264

/-! ## Codes in the bits ahead -/

namespace Codeword

/-- More zeros are ahead than a code begins with. -/
def Overlong (ahead : List Bool) : Prop :=
  List.replicate 32 false <+: ahead

/-- A whole code is next: at most 31 zeros, a one bit, and as many low bits as there were zeros. -/
structure Next (zeros : Nat) (low ahead : List Bool) : Prop where
  zeros_le : zeros ≤ 31
  length_low : low.length = zeros
  begins : List.replicate zeros false ++ true :: low <+: ahead

end Codeword

/-- What reading a code gives: an overflow where too many zeros are ahead, what is made of the
number of a whole code, with just its bits consumed, and else nothing but a truncation. -/
structure Reader.ReadsCode {α : Type} (r : Reader) (name : String) (action : Read α)
    (ofNumber : Nat → α) : Prop where
  overlong : action r = .error (.field name (.overflow .longCode)) (r.advance 32) ↔
    Codeword.Overlong r.rest
  whole : ∀ value after, action r = .ok value after ↔ ∃ zeros low,
    Codeword.Next zeros low r.rest ∧ value = ofNumber (2 ^ zeros - 1 + Bits.toNat low) ∧
      after = r.advance (2 * zeros + 1)
  cut : (∃ after, action r = .error (.truncated name) after) ↔
    ¬Codeword.Overlong r.rest ∧ ¬∃ zeros low, Codeword.Next zeros low r.rest

/-- The bits between two positions of a reader. -/
def Reader.consumed (r after : Reader) : List Bool :=
  r.rest.take (after.pos - r.pos)

/-- Each value has one code: what is read is what a writer makes of the value, two reads give the
same value just where they consume the same bits, and no code begins another. -/
structure Canonical {α : Type} (read : String → Read α)
    (write : Writer → α → Except Misuse Writer) : Prop where
  written : ∀ name r value after, read name r = .ok value after →
    ∀ w, write w value = .ok (w.append (r.consumed after))
  same_iff : ∀ name first x firstAfter, read name first = .ok x firstAfter →
    ∀ other second y secondAfter, read other second = .ok y secondAfter →
      (x = y ↔ first.consumed firstAfter = second.consumed secondAfter)
  eq_of_isPrefix : ∀ w x y front back, write w x = .ok front → write w y = .ok back →
    front.bits <+: back.bits → x = y

/-! ## Outcomes -/

namespace Bits

theorem zerosAhead_append (zeros : Nat) (tail : List Bool) :
    zerosAhead (List.replicate zeros false ++ true :: tail) = zeros := by
  induction zeros with
  | zero => rfl
  | succ zeros ih => rw [List.replicate_succ, List.cons_append, zerosAhead_false, ih]

theorem replicate_isPrefix_iff (count : Nat) (bits : List Bool) :
    List.replicate count false <+: bits ↔ count ≤ zerosAhead bits := by
  induction count generalizing bits with
  | zero => simp
  | succ count ih =>
    cases bits with
    | nil => simp [zerosAhead, List.replicate_succ]
    | cons bit bits =>
      cases bit with
      | true => simp [zerosAhead_true, List.replicate_succ]
      | false =>
        rw [zerosAhead_false, List.replicate_succ, List.cons_prefix_cons, ih,
          Nat.add_le_add_iff_right]
        exact and_iff_right rfl

/-- Bits that do not end with the zeros ahead go on with a one bit. -/
theorem eq_zerosAhead_append {bits : List Bool} (h : zerosAhead bits < bits.length) :
    bits = List.replicate (zerosAhead bits) false ++ true :: bits.drop (zerosAhead bits + 1) := by
  induction bits with
  | nil => exact absurd h (Nat.not_lt_zero _)
  | cons bit bits ih =>
    cases bit with
    | true => rfl
    | false =>
      have hlater := ih (Nat.lt_of_succ_lt_succ h)
      rw [zerosAhead_false, List.replicate_succ, List.cons_append, List.drop_succ_cons, ← hlater]

end Bits

namespace Move

open Codeword (Overlong Next)

variable (name : String) {ahead : List Bool}

theorem code_of_overlong (h : Overlong ahead) :
    code name ahead = (.error (.field name (.overflow .longCode)), 32) := by
  have hzeros : 32 ≤ Bits.zerosAhead ahead := (Bits.replicate_isPrefix_iff 32 ahead).mp h
  unfold code
  exact if_pos hzeros

theorem code_of_next {zeros : Nat} {low : List Bool} (h : Next zeros low ahead) :
    code name ahead = (.ok (2 ^ zeros - 1 + Bits.toNat low), 2 * zeros + 1) := by
  obtain ⟨hmost, hlow, tail, rfl⟩ := h
  rw [List.append_assoc, List.cons_append]
  have hlength : (List.replicate zeros false ++ true :: (low ++ tail)).length =
      2 * zeros + 1 + tail.length := by
    simp only [List.length_append, List.length_replicate, List.length_cons, hlow]
    omega
  have hdrop : (List.replicate zeros false ++ true :: (low ++ tail)).drop (zeros + 1) =
      low ++ tail := by
    rw [← List.drop_drop, List.drop_left' List.length_replicate]
    rfl
  unfold code
  dsimp only
  rw [Bits.zerosAhead_append, hlength, hdrop, List.take_left' hlow, if_neg (by omega),
    if_neg (by omega), if_neg (by omega)]

theorem code_of_cut (hlong : ¬Overlong ahead) (hnext : ¬∃ zeros low, Next zeros low ahead) :
    ∃ passed, code name ahead = (.error (.truncated name), passed) := by
  have hzeros : ¬32 ≤ Bits.zerosAhead ahead := mt (Bits.replicate_isPrefix_iff 32 ahead).mpr hlong
  unfold code
  dsimp only
  rw [if_neg hzeros]
  by_cases hone : ahead.length ≤ Bits.zerosAhead ahead
  · rw [if_pos hone]
    exact ⟨_, rfl⟩
  rw [if_neg hone]
  by_cases hshort : ahead.length < 2 * Bits.zerosAhead ahead + 1
  · rw [if_pos hshort]
    exact ⟨_, rfl⟩
  · -- nothing is missing, so that a whole code would be next
    have hsplit := Bits.eq_zerosAhead_append (Nat.not_le.mp hone)
    refine absurd ⟨Bits.zerosAhead ahead,
      (ahead.drop (Bits.zerosAhead ahead + 1)).take (Bits.zerosAhead ahead), ?_, ?_, ?_⟩ hnext
    · omega
    · rw [List.length_take, List.length_drop]
      omega
    · refine ⟨(ahead.drop (Bits.zerosAhead ahead + 1)).drop (Bits.zerosAhead ahead), ?_⟩
      rw [List.append_assoc, List.cons_append, List.take_append_drop]
      exact hsplit.symm

theorem map_eq_self {α : Type} (move : Move α) : (move.map fun value => value) = move := by
  obtain ⟨outcome, passed⟩ := move
  cases outcome <;> rfl

end Move

/-- An action that makes something of the number of a code has the three outcomes of a code. -/
theorem Reader.ReadsCode.of_code {α : Type} {r : Reader} {name : String} {action : Read α}
    {ofNumber : Nat → α} (h : action r = ((Move.code name r.rest).map ofNumber).result r) :
    r.ReadsCode name action ofNumber := by
  have hover (hlong : Codeword.Overlong r.rest) :
      action r = .error (.field name (.overflow .longCode)) (r.advance 32) := by
    rw [h, Move.code_of_overlong name hlong]
    rfl
  have hwhole {zeros : Nat} {low : List Bool} (hnext : Codeword.Next zeros low r.rest) :
      action r = .ok (ofNumber (2 ^ zeros - 1 + Bits.toNat low)) (r.advance (2 * zeros + 1)) := by
    rw [h, Move.code_of_next name hnext]
    rfl
  have hcut (hlong : ¬Codeword.Overlong r.rest)
      (hnext : ¬∃ zeros low, Codeword.Next zeros low r.rest) :
      ∃ after, action r = .error (.truncated name) after := by
    obtain ⟨passed, hcode⟩ := Move.code_of_cut name hlong hnext
    rw [h, hcode]
    exact ⟨r.advance passed, rfl⟩
  -- no outcome is that of another case
  constructor
  case overlong =>
    refine ⟨fun hread => ?_, hover⟩
    by_contra hlong
    by_cases hnext : ∃ zeros low, Codeword.Next zeros low r.rest
    · obtain ⟨zeros, low, hnext⟩ := hnext
      cases hread.symm.trans (hwhole hnext)
    · obtain ⟨after, hfail⟩ := hcut hlong hnext
      cases hread.symm.trans hfail
  case whole =>
    intro value after
    constructor
    · intro hread
      have hlong : ¬Codeword.Overlong r.rest := by
        intro hlong
        cases hread.symm.trans (hover hlong)
      by_cases hnext : ∃ zeros low, Codeword.Next zeros low r.rest
      · obtain ⟨zeros, low, hnext⟩ := hnext
        cases hread.symm.trans (hwhole hnext)
        exact ⟨zeros, low, hnext, rfl, rfl⟩
      · obtain ⟨after, hfail⟩ := hcut hlong hnext
        cases hread.symm.trans hfail
    · rintro ⟨zeros, low, hnext, rfl, rfl⟩
      exact hwhole hnext
  case cut =>
    constructor
    · rintro ⟨after, hread⟩
      constructor
      · intro hlong
        cases hread.symm.trans (hover hlong)
      · rintro ⟨zeros, low, hnext⟩
        cases hread.symm.trans (hwhole hnext)
    · rintro ⟨hlong, hnext⟩
      exact hcut hlong hnext

/-! ## One code for each value -/

theorem Reader.consumed_advance {r : Reader} {front tail : List Bool} (h : r.rest = front ++ tail) :
    r.consumed (r.advance front.length) = front := by
  rw [consumed, h, pos_advance, Nat.add_sub_cancel_left, List.take_left]

/-- Bits that an action takes whatever follows do not begin others that it takes so. -/
theorem Reads.eq_of_isPrefix {α : Type} {action : Read α} {front whole : List Bool} {x y : α}
    (hfront : Reads action front x) (hwhole : Reads action whole y) (h : front <+: whole) :
    x = y := by
  obtain ⟨tail, rfl⟩ := h
  -- a reader that finds the longer bits finds the shorter ones as well
  let r : Reader := { data := (Writer.append {} (front ++ tail)).toBytes }
  obtain ⟨padding, hrest⟩ : ∃ padding, r.rest = front ++ tail ++ padding := by
    have hbits := Writer.bits_toBytes (Writer.append {} (front ++ tail))
    rw [Writer.bits_append_empty] at hbits
    exact ⟨_, hbits⟩
  have hshort := hfront r (tail ++ padding) (by rw [hrest, List.append_assoc])
  have hlong := hwhole r padding hrest
  rw [hshort] at hlong
  exact (EStateM.Result.ok.inj hlong).1

namespace Canonical

variable {α : Type} {read : String → Read α} {element : α → Element}

/-- What is accepted as one element has consumed the codeword of this element. -/
theorem consumed_of_accepts {name : String}
    (h : Accepts (read name) (fun value => (element value).Fits) fun value => [element value])
    {r after : Reader} {value : α} (hread : read name r = .ok value after) :
    (element value).Fits ∧ r.consumed after = (element value).codeword := by
  obtain ⟨_, tail, ⟨hfits, rfl⟩, hrest, rfl⟩ := h r value after hread
  rw [Reader.consumed_advance hrest]
  exact ⟨hfits, List.append_nil _⟩

theorem eq_append_of_write {w longer : Writer} {value : Element} (h : value.write w = .ok longer) :
    value.Fits ∧ longer = w.append value.codeword := by
  by_cases hfits : value.Fits
  · rw [Element.write_of_fits w hfits] at h
    exact ⟨hfits, (Except.ok.inj h).symm⟩
  · obtain ⟨cause, hrefused⟩ := Element.write_of_not_fits w hfits
    cases hrefused.symm.trans h

/-- A value that is accepted as one element and read back from it has one code. -/
theorem of_element
    (haccepts : ∀ name,
      Accepts (read name) (fun value => (element value).Fits) fun value => [element value])
    (hreads : ∀ name value, (element value).Fits →
      Reads (read name) (element value).codeword value) :
    Canonical read fun w value => (element value).write w where
  written name r value after hread w := by
    obtain ⟨hfits, hconsumed⟩ := consumed_of_accepts (haccepts name) hread
    rw [hconsumed]
    exact Element.write_of_fits w hfits
  same_iff name first x firstAfter hfirst other second y secondAfter hsecond := by
    obtain ⟨hx, hfront⟩ := consumed_of_accepts (haccepts name) hfirst
    obtain ⟨hy, hback⟩ := consumed_of_accepts (haccepts other) hsecond
    rw [hfront, hback]
    constructor
    · rintro rfl
      rfl
    · intro hsame
      exact (hreads name x hx).eq_of_isPrefix (hreads name y hy) (hsame ▸ List.prefix_rfl)
  eq_of_isPrefix w x y front back hfront hback hprefix := by
    obtain ⟨hx, rfl⟩ := eq_append_of_write hfront
    obtain ⟨hy, rfl⟩ := eq_append_of_write hback
    rw [Writer.bits_append, Writer.bits_append, List.prefix_append_right_inj] at hprefix
    have hcodes : (element x).codeword <+: (element y).codeword := hprefix
    exact (hreads "" x hx).eq_of_isPrefix (hreads "" y hy) hcodes

end Canonical

/-! ## Both codes -/

theorem canonical_ue : Canonical Read.ue fun w value => w.ue value := by
  have hfits (value : Nat) : (Element.ue value).Fits ↔ value ≤ Codeword.maxCodeNumber := by
    show 0 ≤ (value : Int) ∧ (value : Int) ≤ Codeword.maxCodeNumber ↔ _
    omega
  have hcode : Canonical Read.ue fun w (value : Nat) => (Element.ue value).write w := by
    apply Canonical.of_element
    · intro name
      refine (Accepts.ue name).mono ?_
      rintro value elements ⟨hvalue, rfl⟩
      exact ⟨(hfits value).mpr hvalue, rfl⟩
    · intro name value h
      exact .ue name ((hfits value).mp h)
  exact hcode

theorem canonical_se : Canonical Read.se Writer.se := by
  have hcode : Canonical Read.se fun w value => (Element.se value).write w := by
    apply Canonical.of_element
    · intro name
      refine (Accepts.se name).mono ?_
      rintro value elements ⟨hvalue, rfl⟩
      exact ⟨Codeword.fits_se_iff.mpr hvalue, rfl⟩
    · intro name value h
      exact .se name h
  exact hcode

/-- **Exp-Golomb codes are canonical.** Wherever a reader stands, an unsigned code has three
outcomes: 32 zeros ahead are an overflow; a whole code, of at most 31 zeros, gives 2^zeros - 1 and
the number in its low bits; and else the data is cut off. A signed code has the same outcomes, with
the signed value of the number. Of either code, a writer makes the bits that were consumed again of
the value that was read, equal values are read from equal bits only, and no code begins another. -/
theorem exp_golomb_canonical (r : Reader) (name : String) :
    r.ReadsCode name (Read.ue name) (fun number => number) ∧
      r.ReadsCode name (Read.se name) Codeword.signedOfNumber ∧
      Canonical Read.ue (fun w value => w.ue value) ∧ Canonical Read.se Writer.se := by
  refine ⟨.of_code ?_, .of_code (Read.se_eq_code r name), canonical_ue, canonical_se⟩
  rw [Move.map_eq_self]
  exact Read.ue_eq_code r name

/-- A code of 31 zeros, a one bit and 31 one bits, and one bit more. -/
def longestCode : Bytes := [0, 0, 0, 1, 255, 255, 255, 254]

theorem exp_golomb_canonical_longestCode :
    Read.ue "code" { data := longestCode } = .ok 4294967294 (.ofPos longestCode 63) ∧
      Writer.ue {} 4294967294 = .ok (Writer.append {} ((Bytes.bits longestCode).take 63)) := by
  have hread : Read.ue "code" { data := longestCode } =
      .ok 4294967294 (.ofPos longestCode 63) := by rfl
  obtain ⟨-, -, hunsigned, -⟩ := exp_golomb_canonical { data := longestCode } "code"
  exact ⟨hread, hunsigned.written "code" _ _ _ hread {}⟩

end H264
