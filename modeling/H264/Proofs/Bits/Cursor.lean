import H264.Proofs.Bits.Ends

/-!
# A reader as a cursor over bits

A `Cursor` is a list of bits and a place in it. `Step.move` says of every step of a reader, in terms
of the bits ahead of the cursor alone, what it gives and how many of them it passes over, also where
it fails; `Reader.cursor` is the cursor that a reader stands for.

* `Step.read_eq` — every step of a reader does what `Step.move` says;
* `Step.move_le` — no step passes over more bits than are ahead;
* `perform_cursor` — a step of a reader is a step of its cursor;
* **`reader_refines_cursor`** — the same of any sequence of steps, and what fields of fixed width
  give wherever such a sequence ends.
-/

namespace H264

/-! ## Bits ahead -/

namespace Bits

/-- The number that a bit list writes in two's complement: its first bit counts negatively. -/
def toInt : List Bool → Int
  | [] => 0
  | sign :: low => toNat low - sign.toNat * 2 ^ low.length

/-- The zeros that a bit list begins with. -/
def zerosAhead (bits : List Bool) : Nat :=
  (bits.takeWhile (!·)).length

/-- The bits before the last one bit of a list that has a one bit, and none of any other. -/
def beforeLastOne : List Bool → Nat
  | [] => 0
  | _ :: rest => if true ∈ rest then beforeLastOne rest + 1 else 0

end Bits

/-! ## Steps of a reader -/

namespace Reader

/-- A step of a reader, with the name of the syntax element if it takes one. -/
inductive Step
  | bits (width : Int) (name : String)
  | flag (name : String)
  | u8 (name : String)
  | signed (width : Int) (name : String)
  | skip (count : Nat) (name : String)
  | ue (name : String)
  | se (name : String)
  | ueMax (name : String) (maximum : Int)
  | seRange (name : String) (least greatest : Int)
  | isAligned
  | align
  | bitsLeft
  | bytesLeft
  | more
  | skipToTrailing
  | finishRbsp
  | finishSeiPayload
deriving DecidableEq, Repr

/-- What a step gives. -/
inductive Answer
  | done
  | flag (value : Bool)
  | number (value : Int)
deriving DecidableEq, Repr

/-- What a step does. -/
def Step.read : Step → Read Answer
  | bits width name => return .number (← Read.bits (← Read.width width) name)
  | flag name => return .flag (← Read.flag name)
  | u8 name => return .number (← Read.u8 name)
  | signed width name => return .number (← Read.signed (← Read.width width) name)
  | skip count name => do
    Read.skip count name
    return .done
  | ue name => return .number (← Read.ue name)
  | se name => return .number (← Read.se name)
  | ueMax name maximum => return .number (← Read.ueMax name maximum)
  | seRange name least greatest => return .number (← Read.seRange name least greatest)
  | isAligned => return .flag (← get).isAligned
  | align => do
    Read.align
    return .done
  | bitsLeft => return .number (← get).bitsLeft
  | bytesLeft => return .number (← get).bytesLeft
  | more => return .flag (← Read.more)
  | skipToTrailing => do
    Read.skipToTrailing
    return .done
  | finishRbsp => do
    Read.finishRbsp
    return .done
  | finishSeiPayload => do
    Read.finishSeiPayload
    return .done

/-- What a step gives, and the reader after it. A step that fails leaves the reader where it
stopped. -/
def perform (r : Reader) (step : Step) : Except Error Answer × Reader :=
  match step.read r with
  | .ok answer after => (.ok answer, after)
  | .error error after => (.error error, after)

/-- What some steps give, one after the other, each with the position after it. -/
def trace (r : Reader) : List Step → List (Except Error Answer × Nat)
  | [] => []
  | step :: steps =>
    ((r.perform step).1, (r.perform step).2.pos) :: trace (r.perform step).2 steps

/-- The reader after some steps. -/
def after (r : Reader) (steps : List Step) : Reader :=
  steps.foldl (fun r step => (r.perform step).2) r

end Reader

/-! ## Moves of a cursor -/

/-- What is made of the bits ahead, and how many of them are passed over. -/
abbrev Move (α : Type) := Except Error α × Nat

namespace Move

variable {α β : Type}

/-- A move whose value is checked; the bits are passed over all the same. -/
def check (test : α → Except Error β) (move : Move α) : Move β :=
  (move.1.bind test, move.2)

/-- A move whose value is changed. -/
def map (f : α → β) (move : Move α) : Move β :=
  move.check fun value => .ok (f value)

/-- A field of a stated width, which has to be one of 0 to 32: its bits, unless there are not as
many. -/
def field (width : Int) (name : String) (ahead : List Bool) : Move (List Bool) :=
  if 0 ≤ width ∧ width ≤ 32 then
    if ahead.length < width.toNat then (.error (.truncated name), 0)
    else (.ok (ahead.take width.toNat), width.toNat)
  else (.error (.misuse (.readWidth width)), 0)

/-- Some bits that are passed over, unless there are not as many. -/
def skip (count : Nat) (name : String) (ahead : List Bool) : Move Unit :=
  if ahead.length < count then (.error (.truncated name), 0) else (.ok (), count)

/-- An Exp-Golomb code: some zeros, a one bit and as many bits as there were zeros. More than 31
zeros are no code, and what is cut off is passed over as far as the one bit. -/
def code (name : String) (ahead : List Bool) : Move Nat :=
  let zeros := Bits.zerosAhead ahead
  if 32 ≤ zeros then (.error (.field name (.overflow .longCode)), 32)
  else if ahead.length ≤ zeros then (.error (.truncated name), zeros)
  else if ahead.length < 2 * zeros + 1 then (.error (.truncated name), zeros + 1)
  else (.ok (2 ^ zeros - 1 + Bits.toNat ((ahead.drop (zeros + 1)).take zeros)), 2 * zeros + 1)

/-- An Exp-Golomb code of a number up to `maximum`. -/
def codeMax (name : String) (maximum : Int) (ahead : List Bool) : Move Nat :=
  (code name ahead).check fun value : Nat =>
    if value ≤ maximum then .ok value else .error (.illegal name value (.atMost maximum))

/-- An Exp-Golomb code of a signed number. -/
def signedCode (name : String) (ahead : List Bool) : Move Int :=
  (code name ahead).map Codeword.signedOfNumber

/-- An Exp-Golomb code of a signed number from `least` to `greatest`. -/
def signedCodeRange (name : String) (least greatest : Int) (ahead : List Bool) : Move Int :=
  (signedCode name ahead).check fun value =>
    if least ≤ value ∧ value ≤ greatest then .ok value
    else .error (.illegal name value (.within least greatest))

/-- The end of a structure: nothing, or a one bit and then only zeros. What the end may not be is
told by the errors. -/
def ending (noOne : Error) (afterOne : Nat → Error) : (ahead : List Bool) → Move Unit
  | [] => (.ok (), 0)
  | false :: _ => (.error noOne, 1)
  | true :: behind =>
    if true ∈ behind then (.error (afterOne behind.length), 1) else (.ok (), behind.length + 1)

/-- The end of a message payload. -/
def payloadEnd (ahead : List Bool) : Move Unit :=
  ending (.illegal "bit_equal_to_one" 0 .nothingInPayload)
    (fun left => .illegal "sei_payload" left .nothingAfterPayloadEnd) ahead

/-- The end of a structure that has to be closed. -/
def close (ahead : List Bool) : Move Unit :=
  if ahead = [] then (.error (.truncated "rbsp_stop_one_bit"), 0)
  else ending (.illegal "rbsp_stop_one_bit" 0 .unstated)
    (fun left => .illegal "rbsp_trailing_bits" left .nothingAfterStopBit) ahead

end Move

namespace Reader

/-- What a step gives with the cursor at a place and these bits ahead of it, and how many of them it
passes over. -/
def Step.move (place : Nat) (ahead : List Bool) : Step → Move Answer
  | bits width name => (Move.field width name ahead).map fun bits => .number (Bits.toNat bits)
  | flag name => (Move.field 1 name ahead).map fun bits => .flag (true ∈ bits)
  | u8 name => (Move.field 8 name ahead).map fun bits => .number (Bits.toNat bits)
  | signed width name => (Move.field width name ahead).map fun bits => .number (Bits.toInt bits)
  | skip count name => (Move.skip count name ahead).map fun _ => .done
  | ue name => (Move.code name ahead).map fun value => .number (value : Nat)
  | se name => (Move.signedCode name ahead).map .number
  | ueMax name maximum => (Move.codeMax name maximum ahead).map fun value => .number (value : Nat)
  | seRange name least greatest => (Move.signedCodeRange name least greatest ahead).map .number
  | isAligned => (.ok (.flag (place % 8 = 0)), 0)
  | align => (.ok .done, 8 * ((place + 7) / 8) - place)
  | bitsLeft => (.ok (.number ahead.length), 0)
  | bytesLeft => (.ok (.number ((ahead.length + 7) / 8 : Nat)), 0)
  | more => (.ok (.flag (true ∈ ahead.drop 1)), 0)
  | skipToTrailing => (.ok .done, Bits.beforeLastOne ahead)
  | finishRbsp => (Move.close ahead).map fun _ => .done
  | finishSeiPayload => (Move.payloadEnd ahead).map fun _ => .done

end Reader

/-- A list of bits and a place in it. -/
structure Cursor where
  bits : List Bool
  place : Nat := 0
deriving DecidableEq, Repr

namespace Cursor

open Reader (Step Answer)

/-- The bits from the place on. -/
def ahead (c : Cursor) : List Bool :=
  c.bits.drop c.place

/-- What a step gives, and the cursor after it. -/
def perform (c : Cursor) (step : Step) : Except Error Answer × Cursor :=
  let (outcome, passed) := step.move c.place c.ahead
  (outcome, { c with place := c.place + passed })

/-- What some steps give, one after the other, each with the place after it. -/
def trace (c : Cursor) : List Step → List (Except Error Answer × Nat)
  | [] => []
  | step :: steps =>
    ((c.perform step).1, (c.perform step).2.place) :: trace (c.perform step).2 steps

/-- The cursor after some steps. -/
def after (c : Cursor) (steps : List Step) : Cursor :=
  steps.foldl (fun c step => (c.perform step).2) c

end Cursor

/-! ## What lies ahead -/

namespace Bits

theorem zerosAhead_true (bits : List Bool) : zerosAhead (true :: bits) = 0 := rfl

theorem zerosAhead_false (bits : List Bool) :
    zerosAhead (false :: bits) = zerosAhead bits + 1 := rfl

theorem zerosAhead_le (bits : List Bool) : zerosAhead bits ≤ bits.length :=
  (List.takeWhile_prefix _).length_le

theorem beforeLastOne_le (bits : List Bool) : beforeLastOne bits ≤ bits.length := by
  induction bits with
  | nil => exact Nat.le_refl 0
  | cons bit bits ih =>
    rw [beforeLastOne, List.length_cons]
    split <;> omega

theorem beforeLastOne_of_not_mem {bits : List Bool} (h : true ∉ bits) : beforeLastOne bits = 0 := by
  cases bits with
  | nil => rfl
  | cons bit bits => exact if_neg fun hmem => h (List.mem_cons_of_mem bit hmem)

/-- With only zeros behind it, a one bit is the last one. -/
theorem beforeLastOne_append (front : List Bool) (count : Nat) :
    beforeLastOne (front ++ true :: List.replicate count false) = front.length := by
  induction front with
  | nil => exact if_neg (by simp)
  | cons bit front ih =>
    rw [List.cons_append, beforeLastOne, if_pos (by simp), ih, List.length_cons]

theorem exists_lastOne {bits : List Bool} (h : true ∈ bits) :
    ∃ front count, bits = front ++ true :: List.replicate count false := by
  induction bits with
  | nil => cases h
  | cons bit bits ih =>
    by_cases hlater : true ∈ bits
    · obtain ⟨front, count, hbits⟩ := ih hlater
      exact ⟨bit :: front, count, congrArg (bit :: ·) hbits⟩
    · obtain rfl : true = bit := (List.mem_cons.mp h).resolve_right hlater
      exact ⟨[], bits.length, congrArg (true :: ·) (eq_zeros hlater)⟩

/-- The pattern of some bits is read as their two's complement number. -/
theorem signedOfPattern_toNat (bits : List Bool) :
    Codeword.signedOfPattern bits.length (toNat bits) = toInt bits := by
  cases bits with
  | nil => rfl
  | cons sign low =>
    have hlow := toNat_lt low
    have hpow : ((2 ^ low.length : Nat) : Int) = 2 ^ low.length := by push_cast; rfl
    rw [List.length_cons, Codeword.signedOfPattern_succ (toNat_lt (sign :: low)), toNat_cons, toInt]
    cases sign with
    | false => rw [if_neg (by simp; omega)]; simp
    | true =>
      rw [if_pos (by simp), Int.pow_succ]
      simp only [Bool.toNat_true]
      push_cast
      omega

end Bits

/-! ## What is passed over -/

namespace Move

variable {α β γ : Type} (name : String) (ahead : List Bool)

theorem field_le (width : Int) : (field width name ahead).2 ≤ ahead.length := by
  unfold field
  split
  · split
    · exact Nat.zero_le _
    · rename_i hlong
      exact Nat.not_lt.mp hlong
  · exact Nat.zero_le _

theorem skip_le (count : Nat) : (skip count name ahead).2 ≤ ahead.length := by
  unfold skip
  split
  · exact Nat.zero_le _
  · rename_i hlong
    exact Nat.not_lt.mp hlong

theorem code_le : (code name ahead).2 ≤ ahead.length := by
  have hzeros := Bits.zerosAhead_le ahead
  unfold code
  dsimp only
  split
  · exact Nat.le_trans ‹_› hzeros
  · split
    · exact hzeros
    · split
      · exact Nat.not_le.mp ‹_›
      · exact Nat.not_lt.mp ‹_›

theorem ending_le (noOne : Error) (afterOne : Nat → Error) :
    (ending noOne afterOne ahead).2 ≤ ahead.length := by
  unfold ending
  split
  · exact Nat.le_refl 0
  · exact Nat.succ_pos _
  · split
    · exact Nat.succ_pos _
    · exact Nat.le_refl _

theorem close_le : (close ahead).2 ≤ ahead.length := by
  unfold close
  split
  · exact Nat.zero_le _
  · exact ending_le ahead _ _

end Move

/-! ## Actions as moves -/

namespace Move

variable {α β γ : Type}

/-- What a move makes of a reader. -/
def result (r : Reader) : Move α → EStateM.Result Error Reader α
  | (.ok value, passed) => .ok value (r.advance passed)
  | (.error error, passed) => .error error (r.advance passed)

theorem result_ok_zero (r : Reader) (value : α) : result r (.ok value, 0) = .ok value r :=
  congrArg (EStateM.Result.ok value) r.advance_zero

theorem result_error_zero (r : Reader) (error : Error) :
    result r ((.error error, 0) : Move α) = .error error r :=
  congrArg (EStateM.Result.error error) r.advance_zero

theorem result_check {action : Read α} {next : α → Read β} {test : α → Except Error β}
    {move : Move α} {r : Reader} (h : action r = move.result r)
    (hnext : ∀ value, next value = Read.ofExcept (test value)) :
    (action >>= next) r = (move.check test).result r := by
  obtain ⟨outcome, passed⟩ := move
  cases outcome with
  | error error => exact bind_of_error h next
  | ok value =>
    rw [bind_of_ok h, hnext]
    show _ = result r (test value, passed)
    cases test value <;> rfl

theorem result_map {action : Read α} {move : Move α} {r : Reader} (h : action r = move.result r)
    (f : α → β) : (action >>= fun value => pure (f value)) r = (move.map f).result r :=
  result_check h fun _ => rfl

theorem map_map (move : Move α) (f : α → β) (g : β → γ) :
    (move.map f).map g = move.map fun value => g (f value) := by
  obtain ⟨outcome, passed⟩ := move
  cases outcome <;> rfl

/-- A field of a width has as many bits. -/
theorem field_map_congr {width : Nat} {f g : List Bool → α}
    (h : ∀ bits, bits.length = width → f bits = g bits) (name : String) (ahead : List Bool) :
    (field width name ahead).map f = (field width name ahead).map g := by
  unfold field
  split
  · split
    · rfl
    · rename_i hlong
      rw [Int.toNat_natCast] at hlong ⊢
      have hlen : (ahead.take width).length = width :=
        List.length_take_of_le (Nat.not_lt.mp hlong)
      exact congrArg (fun value => (Except.ok value, width)) (h _ hlen)
  · rfl

end Move

namespace Read

variable (r : Reader)

theorem bits_eq_field (width : Nat) (name : String) :
    bits width name r = ((Move.field width name r.rest).map Bits.toNat).result r := by
  by_cases hwidth : width ≤ maxWidth
  · have hstated : 0 ≤ (width : Int) ∧ (width : Int) ≤ 32 :=
      ⟨Int.natCast_nonneg width, Int.ofNat_le.mpr hwidth⟩
    rw [Move.field, if_pos hstated, Int.toNat_natCast, Reader.length_rest]
    by_cases hleft : r.bitsLeft < width
    · rw [if_pos hleft]
      exact (bits_eq_error r name hwidth hleft).trans (Move.result_error_zero r _).symm
    · rw [if_neg hleft]
      exact bits_eq_ok r name hwidth (Nat.not_lt.mp hleft)
  · have hstated : ¬(0 ≤ (width : Int) ∧ (width : Int) ≤ 32) :=
      fun h => hwidth (Int.ofNat_le.mp h.2)
    rw [Move.field, if_neg hstated]
    unfold bits
    rw [if_pos (Nat.not_le.mp hwidth)]
    exact (Move.result_error_zero r _).symm

theorem signed_eq_field (width : Nat) (name : String) :
    signed width name r = ((Move.field width name r.rest).map Bits.toInt).result r := by
  have hread : signed width name r = (((Move.field width name r.rest).map Bits.toNat).map
      (Codeword.signedOfPattern width)).result r :=
    Move.result_map (bits_eq_field r width name) _
  rw [hread, Move.map_map]
  refine congrArg (Move.result r) (Move.field_map_congr (fun bits hlen => ?_) name r.rest)
  rw [← hlen, Bits.signedOfPattern_toNat]

/-- A stated width is checked before anything is read. -/
theorem width_eq_field {α : Type} {action : Nat → Read α} {value : List Bool → α} {name : String}
    (h : ∀ width : Nat, action width r = ((Move.field width name r.rest).map value).result r)
    (stated : Int) :
    (width stated >>= action) r = ((Move.field stated name r.rest).map value).result r := by
  by_cases hsign : 0 ≤ stated
  · obtain ⟨count, rfl⟩ := Int.eq_ofNat_of_zero_le hsign
    exact h count
  · have hstated : ¬(0 ≤ stated ∧ stated ≤ 32) := fun h => hsign h.1
    rw [Move.field, if_neg hstated]
    unfold width
    rw [if_neg hsign]
    exact (Move.result_error_zero r _).symm

theorem skip_eq (count : Nat) (name : String) :
    skip count name r = (Move.skip count name r.rest).result r := by
  rw [Move.skip, Reader.length_rest]
  unfold skip
  dsimp only
  rw [get_bind]
  by_cases hleft : r.bitsLeft < count
  · rw [if_pos hleft, if_pos hleft]
    exact (Move.result_error_zero r _).symm
  · rw [if_neg hleft, if_neg hleft]
    rfl

/-! ## Exp-Golomb codes -/

/-- The zeros of a code are counted one by one, as long as there are bits and `budget` lasts. -/
theorem leadingZeros_eq (name : String) (budget : Nat) :
    leadingZeros name budget r = Move.result r
      (if budget ≤ Bits.zerosAhead r.rest then (.error (.field name (.overflow .longCode)), budget)
      else if r.rest.length ≤ Bits.zerosAhead r.rest then
        (.error (.truncated name), Bits.zerosAhead r.rest)
      else (.ok (Bits.zerosAhead r.rest), Bits.zerosAhead r.rest + 1)) := by
  induction budget generalizing r with
  | zero =>
    rw [if_pos (Nat.zero_le _)]
    exact (Move.result_error_zero r _).symm
  | succ budget ih =>
    unfold leadingZeros
    cases hrest : r.rest with
    | nil =>
      rw [bind_of_error (flag_nil hrest name)]
      exact (Move.result_error_zero r _).symm
    | cons bit tail =>
      rw [bind_of_ok (flag_cons hrest name)]
      cases bit with
      | true =>
        have hbudget : ¬budget + 1 ≤ 0 := Nat.not_succ_le_zero budget
        have hleft : ¬(true :: tail).length ≤ 0 := Nat.not_succ_le_zero tail.length
        rw [Bits.zerosAhead_true, if_pos rfl, if_neg hbudget, if_neg hleft]
        rfl
      | false =>
        have htail := rest_advance_one hrest
        have hlater := ih (r.advance 1)
        rw [htail] at hlater
        rw [Bits.zerosAhead_false, List.length_cons, if_neg Bool.false_ne_true]
        by_cases hbudget : budget ≤ Bits.zerosAhead tail
        · rw [if_pos hbudget] at hlater
          rw [if_pos (Nat.succ_le_succ hbudget), bind_of_error hlater, Reader.advance_advance,
            Nat.add_comm]
          rfl
        rw [if_neg hbudget] at hlater
        rw [if_neg fun h => hbudget (Nat.le_of_succ_le_succ h)]
        by_cases hleft : tail.length ≤ Bits.zerosAhead tail
        · rw [if_pos hleft] at hlater
          rw [if_pos (Nat.succ_le_succ hleft), bind_of_error hlater, Reader.advance_advance,
            Nat.add_comm]
          rfl
        · rw [if_neg hleft] at hlater
          rw [if_neg fun h => hleft (Nat.le_of_succ_le_succ h), bind_of_ok hlater,
            Reader.advance_advance, Nat.add_comm 1]
          rfl

theorem ue_eq_code (name : String) : ue name r = (Move.code name r.rest).result r := by
  have hzeros := leadingZeros_eq r name (Codeword.maxLeadingZeros + 1)
  have hmax : Codeword.maxLeadingZeros + 1 = 32 := rfl
  unfold ue Move.code
  dsimp only
  generalize Bits.zerosAhead r.rest = zeros at hzeros ⊢
  rw [hmax] at hzeros ⊢
  by_cases hlong : 32 ≤ zeros
  · rw [if_pos hlong] at hzeros ⊢
    exact bind_of_error hzeros _
  rw [if_neg hlong] at hzeros ⊢
  by_cases hnone : r.rest.length ≤ zeros
  · rw [if_pos hnone] at hzeros ⊢
    exact bind_of_error hzeros _
  rw [if_neg hnone] at hzeros ⊢
  -- the one bit is there, and as many bits as there were zeros have to follow
  have hwidth : zeros ≤ maxWidth := Nat.le_trans (Nat.not_le.mp hlong).le (Nat.le_refl 32)
  have hleft : (r.advance (zeros + 1)).bitsLeft = r.rest.length - (zeros + 1) := by
    rw [← Reader.length_rest, Reader.rest_advance, List.length_drop]
  rw [bind_of_ok hzeros]
  by_cases hshort : r.rest.length < 2 * zeros + 1
  · rw [if_pos hshort, bind_of_error (bits_eq_error _ name hwidth (by omega))]
    rfl
  · rw [if_neg hshort, bind_of_ok (bits_eq_ok _ name hwidth (by omega)), Reader.rest_advance,
      Reader.advance_advance, Nat.one_shiftLeft]
    have hpassed : zeros + 1 + zeros = 2 * zeros + 1 := by omega
    rw [hpassed]
    rfl

theorem ueMax_eq_code (name : String) (maximum : Int) :
    ueMax name maximum r = (Move.codeMax name maximum r.rest).result r := by
  refine Move.result_check (ue_eq_code r name) fun value => ?_
  by_cases hmax : (value : Int) ≤ maximum
  · rw [if_neg (Int.not_lt.mpr hmax), if_pos hmax]
    rfl
  · rw [if_pos (Int.not_le.mp hmax), if_neg hmax]
    rfl

theorem se_eq_code (name : String) : se name r = (Move.signedCode name r.rest).result r :=
  Move.result_map (ue_eq_code r name) Codeword.signedOfNumber

theorem seRange_eq_code (name : String) (least greatest : Int) :
    seRange name least greatest r = (Move.signedCodeRange name least greatest r.rest).result r := by
  refine Move.result_check (se_eq_code r name) fun value => ?_
  by_cases hrange : least ≤ value ∧ value ≤ greatest
  · rw [if_pos hrange, if_pos hrange]
    rfl
  · rw [if_neg hrange, if_neg hrange]
    rfl

/-! ## Ends -/

theorem align_eq_result :
    align r = Move.result r (.ok ⟨⟩, 8 * ((r.pos + 7) / 8) - r.pos) := by
  have hcount : (8 - r.pos % 8) % 8 = 8 * ((r.pos + 7) / 8) - r.pos := by omega
  rw [align_eq, hcount]
  rfl

theorem skipToTrailing_eq :
    skipToTrailing r = Move.result r (.ok ⟨⟩, Bits.beforeLastOne r.rest) := by
  by_cases hone : true ∈ r.rest
  · obtain ⟨front, count, hrest⟩ := Bits.exists_lastOne hone
    rw [skipToTrailing_of_rest hrest, hrest, Bits.beforeLastOne_append]
    rfl
  · rw [Bits.beforeLastOne_of_not_mem hone]
    unfold skipToTrailing
    rw [modify_apply]
    cases hlast : Reader.lastOne? r.data with
    | none => exact (Move.result_ok_zero r _).symm
    | some last =>
      have hbehind : ¬r.pos ≤ last := fun hle => by
        have hhas := (Reader.hasOneFrom_iff r.data r.pos).mpr ⟨last, hlast, hle⟩
        rw [← Reader.hasOne, Reader.hasOne_eq] at hhas
        simp [hone] at hhas
      have hcount : last - r.pos = 0 := by omega
      dsimp only
      rw [hcount]
      rfl

theorem ending_cons {bit : Bool} {tail : List Bool} (noOne : Error) (afterOne : Nat → Error) :
    (if bit = true then
        if tail.any id = true then .error (afterOne tail.length) (r.advance 1)
        else .ok ⟨⟩ (r.advance (tail.length + 1))
      else .error noOne (r.advance 1)) =
      (Move.ending noOne afterOne (bit :: tail)).result r := by
  cases bit with
  | false => rfl
  | true =>
    have hany : tail.any id = true ↔ true ∈ tail := by simp
    show _ = Move.result r (if true ∈ tail then _ else _)
    rw [if_pos rfl]
    by_cases hone : true ∈ tail
    · rw [if_pos (hany.mpr hone), if_pos hone]
      rfl
    · rw [if_neg (mt hany.mp hone), if_neg hone]
      rfl

theorem finishRbsp_eq : finishRbsp r = (Move.close r.rest).result r := by
  cases hrest : r.rest with
  | nil => exact (finishRbsp_nil hrest).trans (Move.result_error_zero r _).symm
  | cons bit tail =>
    rw [finishRbsp_cons hrest, Move.close, if_neg (List.cons_ne_nil bit tail)]
    exact ending_cons r (.illegal "rbsp_stop_one_bit" 0 .unstated)
      fun left => .illegal "rbsp_trailing_bits" left .nothingAfterStopBit

theorem finishSeiPayload_eq : finishSeiPayload r = (Move.payloadEnd r.rest).result r := by
  cases hrest : r.rest with
  | nil => exact (finishSeiPayload_nil hrest).trans (Move.result_ok_zero r _).symm
  | cons bit tail =>
    rw [finishSeiPayload_cons hrest]
    exact ending_cons r (.illegal "bit_equal_to_one" 0 .nothingInPayload)
      fun left => .illegal "sei_payload" left .nothingAfterPayloadEnd

end Read

/-! ## Steps as moves -/

namespace Reader

/-- The cursor that a reader stands for. -/
def cursor (r : Reader) : Cursor :=
  { bits := Bytes.bits r.data, place := r.pos }

/-- A step of a reader does what its move says of the bits that remain. -/
theorem Step.read_eq (step : Step) (r : Reader) :
    step.read r = (step.move r.pos r.rest).result r := by
  cases step with
  | bits width name =>
    have hread := Move.result_map
      (Read.width_eq_field r (fun width => Read.bits_eq_field r width name) width)
      fun value => Answer.number value
    rw [bind_assoc, Move.map_map] at hread
    exact hread
  | flag name =>
    have hread := Move.result_map (Move.result_map (Read.bits_eq_field r 1 name) (· == 1))
      Answer.flag
    rw [Move.map_map, Move.map_map] at hread
    refine hread.trans (congrArg (Move.result r) (Move.field_map_congr (fun bits hlen => ?_) name _))
    obtain ⟨bit, rfl⟩ := List.length_eq_one_iff.mp hlen
    cases bit <;> rfl
  | u8 name =>
    have hread := Move.result_map (Read.bits_eq_field r 8 name) fun value => Answer.number value
    rw [Move.map_map] at hread
    exact hread
  | signed width name =>
    have hread := Move.result_map
      (Read.width_eq_field r (fun width => Read.signed_eq_field r width name) width) Answer.number
    rw [bind_assoc, Move.map_map] at hread
    exact hread
  | skip count name => exact Move.result_map (Read.skip_eq r count name) fun _ => Answer.done
  | ue name => exact Move.result_map (Read.ue_eq_code r name) fun value => Answer.number value
  | se name => exact Move.result_map (Read.se_eq_code r name) Answer.number
  | ueMax name maximum =>
    exact Move.result_map (Read.ueMax_eq_code r name maximum) fun value => Answer.number value
  | seRange name least greatest =>
    exact Move.result_map (Read.seRange_eq_code r name least greatest) Answer.number
  | isAligned =>
    have haligned : decide (r.pos % 8 = 0) = r.isAligned := by
      rw [← r.bitOffset_eq, Reader.isAligned, Bool.beq_eq_decide_eq, decide_eq_decide]
      exact Fin.val_eq_zero_iff
    rw [Step.move, haligned]
    exact (Move.result_ok_zero r _).symm
  | align => exact Move.result_map (Read.align_eq_result r) fun _ => Answer.done
  | bitsLeft =>
    rw [Step.move, length_rest]
    exact (Move.result_ok_zero r _).symm
  | bytesLeft =>
    have hbytes : (r.rest.length + 7) / 8 = r.bytesLeft := by
      rw [length_rest, Reader.bitsLeft, size, Reader.bytesLeft, r.byteOffset_eq]
      omega
    rw [Step.move, hbytes]
    exact (Move.result_ok_zero r _).symm
  | more =>
    have hmore : decide (true ∈ r.rest.drop 1) = r.hasMore := by
      rw [hasMore_eq, Bool.eq_iff_iff]
      simp
    rw [Step.move, hmore]
    exact (Move.result_ok_zero r _).symm
  | skipToTrailing => exact Move.result_map (Read.skipToTrailing_eq r) fun _ => Answer.done
  | finishRbsp => exact Move.result_map (Read.finishRbsp_eq r) fun _ => Answer.done
  | finishSeiPayload => exact Move.result_map (Read.finishSeiPayload_eq r) fun _ => Answer.done

/-- No step passes over more than what is ahead, up to the end of some bytes. -/
theorem Step.move_le (step : Step) {place size : Nat} {ahead : List Bool}
    (h : place + ahead.length = 8 * size) : (step.move place ahead).2 ≤ ahead.length := by
  cases step with
  | bits width name => exact Move.field_le name ahead width
  | flag name => exact Move.field_le name ahead 1
  | u8 name => exact Move.field_le name ahead 8
  | signed width name => exact Move.field_le name ahead width
  | skip count name => exact Move.skip_le name ahead count
  | ue name => exact Move.code_le name ahead
  | se name => exact Move.code_le name ahead
  | ueMax name maximum => exact Move.code_le name ahead
  | seRange name least greatest => exact Move.code_le name ahead
  | isAligned => exact Nat.zero_le _
  | align =>
    show 8 * ((place + 7) / 8) - place ≤ ahead.length
    omega
  | bitsLeft => exact Nat.zero_le _
  | bytesLeft => exact Nat.zero_le _
  | more => exact Nat.zero_le _
  | skipToTrailing => exact Bits.beforeLastOne_le ahead
  | finishRbsp => exact Move.close_le ahead
  | finishSeiPayload => exact Move.ending_le ahead _ _

/-! ## Runs of steps -/

variable (r : Reader) (step : Step) (steps : List Step)

theorem ahead_cursor : r.cursor.ahead = r.rest := rfl

theorem perform_eq : r.perform step =
    ((step.move r.pos r.rest).1, r.advance (step.move r.pos r.rest).2) := by
  unfold perform
  rw [step.read_eq]
  obtain ⟨outcome, passed⟩ := step.move r.pos r.rest
  cases outcome <;> rfl

/-- A step of the reader is a step of its cursor. -/
theorem perform_cursor : r.cursor.perform step =
    ((r.perform step).1, (r.perform step).2.cursor) := by
  rw [perform_eq, cursor, cursor, pos_advance]
  rfl

theorem trace_cursor : r.cursor.trace steps = r.trace steps := by
  induction steps generalizing r with
  | nil => rfl
  | cons step steps ih =>
    rw [Cursor.trace, perform_cursor, ih]
    rfl

theorem after_cursor : r.cursor.after steps = (r.after steps).cursor := by
  induction steps generalizing r with
  | nil => rfl
  | cons step steps ih =>
    have hstep : r.cursor.after (step :: steps) = (r.cursor.perform step).2.after steps := rfl
    rw [hstep, perform_cursor, ih]
    rfl

theorem data_perform : (r.perform step).2.data = r.data := by
  rw [perform_eq]
  rfl

/-- A step does not go back, also where it fails. -/
theorem pos_le_perform : r.pos ≤ (r.perform step).2.pos := by
  rw [perform_eq, pos_advance]
  exact Nat.le_add_right _ _

/-- A step does not go past the end, also where it fails. -/
theorem pos_perform_le (h : r.pos ≤ r.size) : (r.perform step).2.pos ≤ r.size := by
  have hlen : r.rest.length = r.size - r.pos := r.length_rest
  have hahead : r.pos + r.rest.length = 8 * r.data.length := by
    rw [hlen]
    exact Nat.add_sub_cancel' h
  have hpassed := step.move_le hahead
  rw [perform_eq, pos_advance]
  omega

theorem data_after : (r.after steps).data = r.data := by
  induction steps generalizing r with
  | nil => rfl
  | cons step steps ih => exact (ih (r.perform step).2).trans (r.data_perform step)

theorem size_perform : (r.perform step).2.size = r.size := by
  rw [size, data_perform, size]

/-- A run does not go past the end, whatever fails in it. -/
theorem pos_after_le (h : r.pos ≤ r.size) : (r.after steps).pos ≤ r.size := by
  induction steps generalizing r with
  | nil => exact h
  | cons step steps ih =>
    have hnext := r.pos_perform_le step h
    rw [← r.size_perform step] at hnext ⊢
    exact ih (r.perform step).2 hnext

/-- The positions of a run, from the first one on, do not decrease and do not go past the end. -/
theorem positions_trace (h : r.pos ≤ r.size) :
    (r.pos :: (r.trace steps).map Prod.snd).Pairwise (· ≤ ·) ∧
      ∀ place ∈ (r.trace steps).map Prod.snd, place ≤ r.size := by
  induction steps generalizing r with
  | nil => simp [trace]
  | cons step steps ih =>
    have hsize := r.size_perform step
    have hnext := r.pos_perform_le step h
    obtain ⟨hordered, hbounded⟩ := ih (r.perform step).2 (hsize ▸ hnext)
    rw [hsize] at hbounded
    rw [trace, List.map_cons]
    refine ⟨List.pairwise_cons.mpr ⟨?_, hordered⟩, List.forall_mem_cons.mpr ⟨hnext, hbounded⟩⟩
    -- later positions are behind the one after this step
    have hlater := (List.pairwise_cons.mp hordered).1
    exact List.forall_mem_cons.mpr ⟨r.pos_le_perform step, fun place hmem =>
      Nat.le_trans (r.pos_le_perform step) (hlater place hmem)⟩

end Reader

/-! ## Fields of a fixed width -/

namespace Read

variable {r : Reader} {name : String} {value : Nat} {after : Reader}

theorem bits_eq_ok_iff {width : Nat} (hwidth : width ≤ maxWidth) :
    bits width name r = .ok value after ↔
      width ≤ r.bitsLeft ∧ value = Bits.toNat (r.rest.take width) ∧ after = r.advance width := by
  by_cases hleft : width ≤ r.bitsLeft
  · rw [bits_eq_ok r name hwidth hleft, EStateM.Result.ok.injEq]
    exact ⟨fun h => ⟨hleft, h.1.symm, h.2.symm⟩, fun h => ⟨h.2.1.symm, h.2.2.symm⟩⟩
  · rw [bits_eq_error r name hwidth (Nat.not_le.mp hleft)]
    exact ⟨nofun, fun h => absurd h.1 hleft⟩

/-- Two fields, one after the other, are one field of both widths. -/
theorem bits_add_iff {first second : Nat} (h : first + second ≤ maxWidth) :
    bits (first + second) name r = .ok value after ↔ ∃ front mid back,
      bits first name r = .ok front mid ∧ bits second name mid = .ok back after ∧
        value = front * 2 ^ second + back := by
  have hfirst : first ≤ maxWidth := Nat.le_trans (Nat.le_add_right _ _) h
  have hsecond : second ≤ maxWidth := Nat.le_trans (Nat.le_add_left _ _) h
  have hrest : (r.advance first).bitsLeft = r.bitsLeft - first := by
    rw [← Reader.length_rest, ← Reader.length_rest, Reader.rest_advance, List.length_drop]
  have hjoined (hleft : first + second ≤ r.bitsLeft) :
      Bits.toNat (r.rest.take (first + second)) = Bits.toNat (r.rest.take first) * 2 ^ second +
        Bits.toNat ((r.advance first).rest.take second) := by
    have hlen : ((r.rest.drop first).take second).length = second := by
      rw [List.length_take, List.length_drop, Reader.length_rest]
      omega
    rw [List.take_add, Bits.toNat_append, hlen, Reader.rest_advance]
  rw [bits_eq_ok_iff h]
  constructor
  · rintro ⟨hleft, rfl, rfl⟩
    refine ⟨_, _, _, (bits_eq_ok_iff hfirst).mpr ⟨by omega, rfl, rfl⟩,
      (bits_eq_ok_iff hsecond).mpr ⟨by omega, rfl, ?_⟩, hjoined hleft⟩
    rw [Reader.advance_advance]
  · rintro ⟨front, mid, back, hfront, hback, rfl⟩
    obtain ⟨hleft, rfl, rfl⟩ := (bits_eq_ok_iff hfirst).mp hfront
    obtain ⟨hlater, rfl, rfl⟩ := (bits_eq_ok_iff hsecond).mp hback
    have hboth : first + second ≤ r.bitsLeft := by omega
    exact ⟨hboth, (hjoined hboth).symm, Reader.advance_advance r first second⟩

end Read

/-- What fields of a fixed width give where these bits are ahead. -/
structure Reader.ReadsAhead (r : Reader) (ahead : List Bool) : Prop where
  bits : ∀ width ≤ 32, ∀ name, Read.bits width name r =
    if ahead.length < width then .error (.truncated name) r
    else .ok (Bits.toNat (ahead.take width)) (r.advance width)
  signed : ∀ width ≤ 32, ∀ name, Read.signed width name r =
    if ahead.length < width then .error (.truncated name) r
    else .ok (Bits.toInt (ahead.take width)) (r.advance width)
  joined : ∀ first second name value after, first + second ≤ 32 →
    (Read.bits (first + second) name r = .ok value after ↔ ∃ front mid back,
      Read.bits first name r = .ok front mid ∧ Read.bits second name mid = .ok back after ∧
        value = front * 2 ^ second + back)

theorem Reader.readsAhead_rest (r : Reader) : r.ReadsAhead r.rest where
  bits width hwidth name := by
    rw [length_rest]
    split
    · exact Read.bits_eq_error r name hwidth ‹_›
    · exact Read.bits_eq_ok r name hwidth (Nat.not_lt.mp ‹_›)
  signed width hwidth name := by
    have hstated : 0 ≤ (width : Int) ∧ (width : Int) ≤ 32 :=
      ⟨Int.natCast_nonneg width, Int.ofNat_le.mpr hwidth⟩
    rw [Read.signed_eq_field, Move.field, if_pos hstated, Int.toNat_natCast]
    split
    · exact Move.result_error_zero r _
    · rfl
  joined first second name value after h := Read.bits_add_iff h

/-! ## Refinement -/

/-- A reader is a cursor over the bits of its data: with any steps, also ones that fail, it gives
what the cursor gives and stands where the cursor stands, at the byte and the bit of the cursor's
place; its positions do not decrease and do not go past the end; and wherever it gets to, fields of
a fixed width are the bits ahead of the cursor, or fail without a move where these are too few. -/
theorem reader_refines_cursor (data : Bytes) (steps : List Reader.Step) :
    let start : Reader := { data }
    let cursor : Cursor := { bits := Bytes.bits data }
    start.trace steps = cursor.trace steps ∧
      (start.after steps).cursor = cursor.after steps ∧
      (start.after steps).byteOffset = (cursor.after steps).place / 8 ∧
      (start.after steps).bitOffset.val = (cursor.after steps).place % 8 ∧
      (0 :: (start.trace steps).map Prod.snd).Pairwise (· ≤ ·) ∧
      (∀ place ∈ (start.trace steps).map Prod.snd, place ≤ 8 * data.length) ∧
      (start.after steps).ReadsAhead (cursor.after steps).ahead := by
  intro start cursor
  obtain ⟨hordered, hbounded⟩ := start.positions_trace steps (Nat.zero_le _)
  have hafter : cursor.after steps = (start.after steps).cursor := start.after_cursor steps
  refine ⟨(start.trace_cursor steps).symm, hafter.symm, ?_, ?_, hordered, hbounded, ?_⟩
  · rw [hafter]
    exact (start.after steps).byteOffset_eq
  · rw [hafter]
    exact (start.after steps).bitOffset_eq
  · rw [hafter, Reader.ahead_cursor]
    exact Reader.readsAhead_rest _

end H264
