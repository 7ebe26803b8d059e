import H264.ErrorClass
import H264.Proofs.Bits.Cursor

/-!
# The last one bit of the data

The data of a payload ends with a one bit and zeros, and each operation at this end looks for it in
a way of its own: by the bits after the next one, by the next bit and those behind it, or from behind.
`Bits.LastOneAt` says where the last one bit of some bits is, and `Bytes.lastOne` finds it byte by
byte from the last one on. Where a reader stands before, at or after this place decides all of them.

* `Bits.LastOneAt.le_iff` — a one bit is left just where the last one is;
* `Bytes.lastOneAt_lastOne` — the search from behind finds the last one bit;
* `Reader.endsBy_of_lastOneAt` — what the operations do at one position;
* **`ends_decided_by_last_one`** — the same wherever any steps get to.
-/

namespace H264

/-! ## The last one of some bits -/

/-- The place of the last one bit, or -1 where there is none. -/
inductive Bits.LastOneAt : List Bool → Int → Prop
  | absent {bits : List Bool} (h : true ∉ bits) : LastOneAt bits (-1)
  | behind (front : List Bool) (count : Nat) :
    LastOneAt (front ++ true :: List.replicate count false) front.length

namespace Bits.LastOneAt

variable {bits : List Bool} {last : Int}

theorem append_zeros (h : LastOneAt bits last) (count : Nat) :
    LastOneAt (bits ++ List.replicate count false) last := by
  cases h with
  | absent hnone => exact .absent (by simp [hnone])
  | behind front zeros =>
    rw [List.append_assoc, List.cons_append, List.replicate_append_replicate]
    exact .behind front _

/-- A one bit is left from a place on just where the last one is. -/
theorem le_iff (h : LastOneAt bits last) (place : Nat) :
    (place : Int) ≤ last ↔ true ∈ bits.drop place := by
  cases h with
  | absent hnone =>
    constructor
    · intro hle
      omega
    · intro hmem
      exact absurd (List.mem_of_mem_drop hmem) hnone
  | behind front count =>
    rw [Int.ofNat_le, List.drop_append]
    by_cases hplace : place ≤ front.length
    · simp [hplace, Nat.sub_eq_zero_of_le hplace]
    · obtain ⟨past, rfl⟩ := Nat.exists_eq_add_of_lt (Nat.not_le.mp hplace)
      have hcount : front.length + past + 1 - front.length = past + 1 := by omega
      have hzeros : ∀ bit ∈ (List.replicate count false).drop past, bit = false := fun bit hbit =>
        List.eq_of_mem_replicate (List.mem_of_mem_drop hbit)
      rw [hcount, List.drop_succ_cons, List.drop_eq_nil_of_le (by omega), List.nil_append]
      constructor
      · intro hle
        exact absurd hle hplace
      · intro hmem
        cases hzeros true hmem

end Bits.LastOneAt

/-! ## Looking for it from behind -/

namespace Bytes

/-- The zeros below the lowest one bit of a byte, which is what the byte has in common with its
negative. -/
def lowZeros (byte : UInt8) : Nat :=
  Nat.log2 (byte &&& -byte).toNat

/-- The place of the last one bit in the first `count` bytes, from the last one of them on. -/
def lastOneWithin (data : Bytes) : (count : Nat) → Int
  | 0 => -1
  | index + 1 =>
    let byte := data.getD index 0
    if byte = 0 then lastOneWithin data index else 8 * index + (7 - lowZeros byte)

/-- The place of the last one bit of a byte string, -1 where there is none. -/
def lastOne (data : Bytes) : Int :=
  lastOneWithin data data.length

theorem octet_of_ne_zero {byte : UInt8} (h : byte ≠ 0) :
    lowZeros byte ≤ 7 ∧ octet byte =
      (octet byte).take (7 - lowZeros byte) ++ true :: List.replicate (lowZeros byte) false := by
  have hbytes : ∀ code : Fin 256, UInt8.ofNat code ≠ 0 →
      lowZeros (UInt8.ofNat code) ≤ 7 ∧ octet (UInt8.ofNat code) =
        (octet (UInt8.ofNat code)).take (7 - lowZeros (UInt8.ofNat code)) ++
          true :: List.replicate (lowZeros (UInt8.ofNat code)) false := by
    decide +kernel
  have hbyte := hbytes ⟨byte.toNat, byte.toNat_lt⟩
  rw [UInt8.ofNat_toNat] at hbyte
  exact hbyte h

theorem lastOneAt_lastOneWithin (data : Bytes) {count : Nat} (h : count ≤ data.length) :
    Bits.LastOneAt (bits (data.take count)) (lastOneWithin data count) := by
  induction count with
  | zero => exact .absent (by simp [bits])
  | succ index ih =>
    have hindex : index < data.length := h
    have hbits : bits (data.take (index + 1)) = bits (data.take index) ++ octet data[index] := by
      rw [List.take_succ_eq_append_getElem hindex, bits_append, bits_cons]
      exact congrArg (_ ++ ·) (List.append_nil _)
    have hbyte : data.getD index 0 = data[index] := by simp [hindex]
    unfold lastOneWithin
    dsimp only
    rw [hbits, hbyte]
    by_cases hzero : data[index] = 0
    · rw [if_pos hzero, hzero]
      exact (ih (Nat.le_of_lt hindex)).append_zeros 8
    · obtain ⟨hlow, hoctet⟩ := octet_of_ne_zero hzero
      rw [if_neg hzero, hoctet, ← List.append_assoc]
      -- the bytes before this one are all in front of its lowest one bit
      have hplace : 8 * (index : Int) + (7 - lowZeros data[index]) = (bits (data.take index) ++
          (octet data[index]).take (7 - lowZeros data[index])).length := by
        simp only [List.length_append, length_bits, List.length_take, length_octet]
        omega
      rw [hplace]
      exact .behind _ _

/-- The search from behind finds the last one bit. -/
theorem lastOneAt_lastOne (data : Bytes) : Bits.LastOneAt (bits data) (lastOne data) := by
  have hwhole := lastOneAt_lastOneWithin data (Nat.le_refl _)
  rwa [List.take_length] at hwhole

example : lastOne [0x41, 0x68, 0, 0] = 12 := by decide

example : lastOne [0, 0] = -1 := by decide

end Bytes

/-! ## Ends as moves -/

namespace Move

variable (noOne : Error) (afterOne : Nat → Error)

theorem ending_of_closed (count : Nat) :
    ending noOne afterOne (true :: List.replicate count false) = (.ok (), count + 1) := by
  have hzeros : true ∉ List.replicate count false := by simp
  rw [ending, if_neg hzeros, List.length_replicate]

/-- Bits that are not the end are refused, with an error of the same class in all cases. -/
theorem ending_of_not_closed {kind : ErrorClass} (hnoOne : noOne.errorClass = kind)
    (hafterOne : ∀ left, (afterOne left).errorClass = kind) {ahead : List Bool}
    (hsome : ahead ≠ []) (hopen : ¬∃ count, ahead = true :: List.replicate count false) :
    ∃ error passed, ending noOne afterOne ahead = (.error error, passed) ∧
      error.errorClass = kind := by
  cases ahead with
  | nil => exact absurd rfl hsome
  | cons bit tail =>
    cases bit with
    | false => exact ⟨noOne, 1, rfl, hnoOne⟩
    | true =>
      by_cases hone : true ∈ tail
      · exact ⟨afterOne tail.length, 1, if_pos hone, hafterOne _⟩
      · exact absurd ⟨tail.length, congrArg _ (Bits.eq_zeros hone)⟩ hopen

end Move

/-! ## What decides the end -/

namespace Reader

/-- The reader at the end of its data. -/
def atEnd (r : Reader) : Reader :=
  ofPos r.data r.size

/-- What the operations at the end of the data do where the last one bit is at `last`: more is left
before it, the structure is closed at it and nowhere else, skipping leads to it from all places up
to it, and a message may end at it or at the end of the data. -/
structure EndsBy (r : Reader) (last : Int) : Prop where
  more : Read.more r = .ok (decide (r.pos < last)) r
  finish_ok_iff : ∀ after,
    Read.finishRbsp r = .ok ⟨⟩ after ↔ (r.pos : Int) = last ∧ after = r.atEnd
  finish_truncated_iff :
    (∃ error after, Read.finishRbsp r = .error error after ∧ error.errorClass = .truncated) ↔
      r.pos = r.size
  finish_illegal_iff :
    (∃ error after, Read.finishRbsp r = .error error after ∧ error.errorClass = .illegal) ↔
      (r.pos : Int) ≠ last ∧ r.pos ≠ r.size
  skip_finish_ok_iff : ∀ after,
    (Read.skipToTrailing >>= fun _ => Read.finishRbsp) r = .ok ⟨⟩ after ↔
      r.pos ≤ last ∧ after = r.atEnd
  payload_ok_iff : ∀ after, Read.finishSeiPayload r = .ok ⟨⟩ after ↔
    ((r.pos : Int) = last ∨ r.pos = r.size) ∧ after = r.atEnd
  not_both : ¬∃ later after, Read.more r = .ok true later ∧ Read.finishRbsp r = .ok ⟨⟩ after

variable {r : Reader} {last : Int}

theorem rest_eq_nil_iff (hpos : r.pos ≤ r.size) : r.rest = [] ↔ r.pos = r.size := by
  rw [← List.length_eq_zero_iff, length_rest]
  unfold bitsLeft
  omega

theorem pos_le_iff (h : Bits.LastOneAt (Bytes.bits r.data) last) : r.pos ≤ last ↔ true ∈ r.rest :=
  h.le_iff r.pos

theorem pos_lt_iff (h : Bits.LastOneAt (Bytes.bits r.data) last) :
    r.pos < last ↔ true ∈ r.rest.drop 1 := by
  have hnext := h.le_iff (r.pos + 1)
  rw [← List.drop_drop] at hnext
  exact hnext

/-- At the last one bit, a one bit and then only zeros are left. -/
theorem pos_eq_iff (h : Bits.LastOneAt (Bytes.bits r.data) last) :
    r.pos = last ↔ ∃ count, r.rest = true :: List.replicate count false := by
  have hle := pos_le_iff h
  have hlt := pos_lt_iff h
  constructor
  · intro heq
    have hone := hle.mp heq.le
    have hlater := mt hlt.mpr heq.not_lt
    cases hrest : r.rest with
    | nil =>
      rw [hrest] at hone
      cases hone
    | cons bit tail =>
      rw [hrest] at hone hlater
      obtain rfl : true = bit := (List.mem_cons.mp hone).resolve_right hlater
      exact ⟨tail.length, congrArg _ (Bits.eq_zeros hlater)⟩
  · rintro ⟨count, hrest⟩
    have hone := hle.mpr (by simp [hrest])
    have hlater := mt hlt.mp (by simp [hrest])
    omega

theorem advance_closed (hpos : r.pos ≤ r.size) {count : Nat}
    (hrest : r.rest = true :: List.replicate count false) : r.advance (count + 1) = r.atEnd := by
  have hleft : count + 1 = r.bitsLeft := by
    rw [← length_rest, hrest, List.length_cons, List.length_replicate]
  have hsum : r.pos + (count + 1) = r.size := by
    rw [hleft]
    exact Nat.add_sub_cancel' hpos
  rw [advance, hsum, atEnd]

/-- The last one bit is inside the data. -/
theorem last_lt_size (h : Bits.LastOneAt (Bytes.bits r.data) last) : last < r.size := by
  have hpast : true ∉ (Bytes.bits r.data).drop (8 * r.data.length) := by
    rw [List.drop_eq_nil_of_le (Bytes.length_bits r.data).le]
    exact List.not_mem_nil
  exact Int.not_le.mp (mt (h.le_iff r.size).mp hpast)

end Reader

namespace Read

variable {r : Reader} {last : Int}

/-! ## One position -/

theorem finishRbsp_atEnd (hpos : r.pos = r.size) :
    finishRbsp r = .error (.truncated "rbsp_stop_one_bit") r :=
  finishRbsp_nil ((Reader.rest_eq_nil_iff hpos.le).mpr hpos)

variable (h : Bits.LastOneAt (Bytes.bits r.data) last)

include h

theorem more_eq : more r = .ok (decide (r.pos < last)) r := by
  have hmore : r.hasMore = decide (r.pos < last) := by
    rw [Reader.hasMore_eq, Bool.eq_iff_iff, decide_eq_true_iff, Reader.pos_lt_iff h]
    simp
  rw [← hmore]
  rfl

/-- Skipping leads to the last one bit, unless the reader is past it. -/
theorem skipToTrailing_before (hle : r.pos ≤ last) :
    ∃ mid, skipToTrailing r = .ok ⟨⟩ mid ∧ mid.data = r.data ∧ (mid.pos : Int) = last := by
  obtain ⟨front, count, hrest⟩ := Bits.exists_lastOne ((Reader.pos_le_iff h).mp hle)
  refine ⟨_, skipToTrailing_of_rest hrest, rfl, ?_⟩
  refine (Reader.pos_eq_iff (r := r.advance front.length) h).mpr ⟨count, ?_⟩
  rw [Reader.rest_advance, hrest, List.drop_left]

theorem skipToTrailing_behind (hlt : last < r.pos) : skipToTrailing r = .ok ⟨⟩ r := by
  have hnone : true ∉ r.rest := mt (Reader.pos_le_iff h).mpr (Int.not_le.mpr hlt)
  rw [skipToTrailing_eq, Bits.beforeLastOne_of_not_mem hnone]
  exact Move.result_ok_zero r _

variable (hpos : r.pos ≤ r.size)

include hpos

theorem finishRbsp_atLast (hlast : (r.pos : Int) = last) : finishRbsp r = .ok ⟨⟩ r.atEnd := by
  obtain ⟨count, hrest⟩ := (Reader.pos_eq_iff h).mp hlast
  rw [finishRbsp_eq, hrest, Move.close, if_neg (List.cons_ne_nil _ _), Move.ending_of_closed,
    ← Reader.advance_closed hpos hrest]
  rfl

theorem finishRbsp_elsewhere (hlast : (r.pos : Int) ≠ last) (hend : r.pos ≠ r.size) :
    ∃ error after, finishRbsp r = .error error after ∧ error.errorClass = .illegal := by
  have hsome : r.rest ≠ [] := mt (Reader.rest_eq_nil_iff hpos).mp hend
  have hopen := mt (Reader.pos_eq_iff h).mpr hlast
  obtain ⟨error, passed, hending, hkind⟩ := Move.ending_of_not_closed
    (.illegal "rbsp_stop_one_bit" 0 .unstated)
    (fun left => .illegal "rbsp_trailing_bits" left .nothingAfterStopBit) rfl (fun _ => rfl)
    hsome hopen
  rw [finishRbsp_eq, Move.close, if_neg hsome, hending]
  exact ⟨error, _, rfl, hkind⟩

theorem finishRbsp_eq_ok_iff (after : Reader) :
    finishRbsp r = .ok ⟨⟩ after ↔ (r.pos : Int) = last ∧ after = r.atEnd := by
  constructor
  · intro hrun
    have hlast : (r.pos : Int) = last := by
      obtain ⟨count, hrest⟩ := rest_of_finishRbsp hrun
      exact (Reader.pos_eq_iff h).mpr ⟨count, hrest⟩
    cases hrun.symm.trans (finishRbsp_atLast h hpos hlast)
    exact ⟨hlast, rfl⟩
  · rintro ⟨hlast, rfl⟩
    exact finishRbsp_atLast h hpos hlast

theorem skip_finish_eq_ok_iff (after : Reader) :
    (skipToTrailing >>= fun _ => finishRbsp) r = .ok ⟨⟩ after ↔
      r.pos ≤ last ∧ after = r.atEnd := by
  by_cases hle : (r.pos : Int) ≤ last
  · obtain ⟨mid, hskip, hdata, hmid⟩ := skipToTrailing_before h hle
    have hsize : mid.size = r.size := by rw [Reader.size, hdata, Reader.size]
    have hinside := Reader.last_lt_size h
    have hends : mid.atEnd = r.atEnd := by
      rw [Reader.atEnd, hsize, hdata, Reader.atEnd]
    rw [bind_of_ok hskip, finishRbsp_eq_ok_iff (hdata ▸ h) (by omega), hends]
    constructor
    · rintro ⟨-, hafter⟩
      exact ⟨hle, hafter⟩
    · rintro ⟨-, hafter⟩
      exact ⟨hmid, hafter⟩
  · rw [bind_of_ok (skipToTrailing_behind h (Int.not_le.mp hle)), finishRbsp_eq_ok_iff h hpos]
    constructor
    · rintro ⟨hlast, -⟩
      exact absurd hlast.le hle
    · rintro ⟨hbefore, -⟩
      exact absurd hbefore hle

theorem finishSeiPayload_eq_ok_iff (after : Reader) :
    finishSeiPayload r = .ok ⟨⟩ after ↔
      ((r.pos : Int) = last ∨ r.pos = r.size) ∧ after = r.atEnd := by
  by_cases hend : r.pos = r.size
  · have hnil := (Reader.rest_eq_nil_iff hpos).mpr hend
    have hsame : r.atEnd = r := by
      rw [Reader.atEnd, ← hend, Reader.ofPos_pos]
    rw [finishSeiPayload_nil hnil, hsame]
    constructor
    · rintro ⟨⟩
      exact ⟨.inr hend, rfl⟩
    · rintro ⟨-, rfl⟩
      rfl
  have hsome : r.rest ≠ [] := mt (Reader.rest_eq_nil_iff hpos).mp hend
  rw [finishSeiPayload_eq]
  unfold Move.payloadEnd
  by_cases hlast : (r.pos : Int) = last
  · obtain ⟨count, hrest⟩ := (Reader.pos_eq_iff h).mp hlast
    rw [hrest, Move.ending_of_closed, ← Reader.advance_closed hpos hrest]
    constructor
    · rintro ⟨⟩
      exact ⟨.inl hlast, rfl⟩
    · rintro ⟨-, rfl⟩
      rfl
  · obtain ⟨error, passed, hending, -⟩ := Move.ending_of_not_closed
      (.illegal "bit_equal_to_one" 0 .nothingInPayload)
      (fun left => .illegal "sei_payload" left .nothingAfterPayloadEnd) rfl (fun _ => rfl)
      hsome (mt (Reader.pos_eq_iff h).mpr hlast)
    rw [hending]
    constructor
    · rintro ⟨⟩
    · rintro ⟨hends, -⟩
      exact (hends.elim hlast hend).elim

end Read

/-! ## All of them together -/

/-- Where the last one bit is decides what the operations at the end of the data do. -/
theorem Reader.endsBy_of_lastOneAt {r : Reader} {last : Int}
    (h : Bits.LastOneAt (Bytes.bits r.data) last) (hpos : r.pos ≤ r.size) : r.EndsBy last where
  more := Read.more_eq h
  finish_ok_iff := Read.finishRbsp_eq_ok_iff h hpos
  finish_truncated_iff := by
    constructor
    · rintro ⟨error, after, hrun, hkind⟩
      by_contra hend
      by_cases hlast : (r.pos : Int) = last
      · cases hrun.symm.trans (Read.finishRbsp_atLast h hpos hlast)
      · obtain ⟨illegal, stopped, hfail, hillegal⟩ := Read.finishRbsp_elsewhere h hpos hlast hend
        cases hrun.symm.trans hfail
        cases hkind.symm.trans hillegal
    · intro hend
      exact ⟨_, r, Read.finishRbsp_atEnd hend, rfl⟩
  finish_illegal_iff := by
    constructor
    · rintro ⟨error, after, hrun, hkind⟩
      constructor
      · intro hlast
        cases hrun.symm.trans (Read.finishRbsp_atLast h hpos hlast)
      · intro hend
        cases hrun.symm.trans (Read.finishRbsp_atEnd hend)
        cases hkind
    · rintro ⟨hlast, hend⟩
      exact Read.finishRbsp_elsewhere h hpos hlast hend
  skip_finish_ok_iff := Read.skip_finish_eq_ok_iff h hpos
  payload_ok_iff := Read.finishSeiPayload_eq_ok_iff h hpos
  not_both := by
    rintro ⟨later, after, hmore, hfinish⟩
    rw [Read.more_eq h] at hmore
    have hbefore : (r.pos : Int) < last := of_decide_eq_true (EStateM.Result.ok.inj hmore).1
    have hlast := ((Read.finishRbsp_eq_ok_iff h hpos after).mp hfinish).1
    omega

/-- **The last one bit decides every end.** The search from behind finds the last one bit of any
data, and wherever steps of a reader get to, its place alone tells whether more is left, whether the
structure can be closed there, at once or after skipping, with what class of error it is refused,
and whether a message may end there. -/
theorem ends_decided_by_last_one (data : Bytes) (steps : List Reader.Step) :
    Bits.LastOneAt (Bytes.bits data) (Bytes.lastOne data) ∧
      (Reader.after { data } steps).EndsBy (Bytes.lastOne data) := by
  have hlast := Bytes.lastOneAt_lastOne data
  refine ⟨hlast, Reader.endsBy_of_lastOneAt ?_ ?_⟩
  · rw [Reader.data_after]
    exact hlast
  · rw [Reader.size, Reader.data_after]
    exact Reader.pos_after_le { data } steps (Nat.zero_le _)

end H264
