import H264.Proofs.Bits.Reads

/-!
# Ends of structures

What the steps at the end of a structure do, by the bits that are left: `flag_cons` takes the next
one, `finishRbsp_cons` and `finishSeiPayload_cons` want a one bit and then only zeros, and
`skipToTrailing_of_rest` passes over all that stands before the last one bit.
-/

namespace H264

/-! ## The last one bit -/

/-- Bits without a one bit are zeros. -/
theorem Bits.eq_zeros {bits : List Bool} (h : true ∉ bits) :
    bits = List.replicate bits.length false := by
  refine List.eq_replicate_of_mem fun bit hbit => ?_
  exact Bool.eq_false_iff.mpr fun htrue => h (htrue ▸ hbit)

/-- A one bit with only zeros behind it is the last one. -/
theorem Reader.lastOne?_of_rest {r : Reader} {front : List Bool} {count : Nat}
    (h : r.rest = front ++ true :: List.replicate count false) :
    Reader.lastOne? r.data = some (r.pos + front.length) := by
  have hplace : ∀ index, (Bytes.bits r.data)[r.pos + index]? = r.rest[index]? :=
    fun index => List.getElem?_drop.symm
  have hone : (Bytes.bits r.data)[r.pos + front.length]? = some true := by
    rw [hplace, h, List.getElem?_append_right (Nat.le_refl _), Nat.sub_self]
    rfl
  cases hlast : Reader.lastOne? r.data with
  | none => exact absurd (List.mem_of_getElem? hone) (Reader.lastOne?_eq_none hlast)
  | some last =>
    obtain ⟨hvalue, hzeros⟩ := Reader.lastOne?_eq_some hlast
    have hle : r.pos + front.length ≤ last :=
      Nat.not_lt.mp fun hlt => hzeros _ hlt hone
    obtain ⟨behind, rfl⟩ := Nat.exists_eq_add_of_le hle
    cases behind with
    | zero => rfl
    | succ behind =>
      -- behind the close there are only zeros
      rw [Nat.add_assoc, hplace, h, List.getElem?_append_right (Nat.le_add_right _ _),
        Nat.add_sub_cancel_left, List.getElem?_cons_succ] at hvalue
      have hmem := List.eq_of_mem_replicate (List.mem_of_getElem? hvalue)
      cases hmem

namespace Read

variable {r : Reader} {bit : Bool} {tail : List Bool}

/-- Whatever stands before the close is passed over. -/
theorem skipToTrailing_of_rest {front : List Bool} {count : Nat}
    (h : r.rest = front ++ true :: List.replicate count false) :
    skipToTrailing r = .ok ⟨⟩ (r.advance front.length) := by
  have hlast := Reader.lastOne?_of_rest h
  have hcount : r.pos + front.length - r.pos = front.length := Nat.add_sub_cancel_left _ _
  unfold skipToTrailing
  rw [modify_apply, hlast]
  dsimp only
  rw [hcount]

/-! ## One bit -/

theorem flag_nil (h : r.rest = []) (name : String) : flag name r = .error (.truncated name) r := by
  have hleft : r.bitsLeft < 1 := by
    rw [← Reader.length_rest, h]
    exact Nat.one_pos
  exact map_of_error (bits_eq_error r name (by decide) hleft) (· == 1)

theorem flag_cons (h : r.rest = bit :: tail) (name : String) :
    flag name r = .ok bit (r.advance 1) :=
  Reads.flag name bit r tail h

theorem rest_advance_one (h : r.rest = bit :: tail) : (r.advance 1).rest = tail := by
  rw [Reader.rest_advance, h, List.drop_one, List.tail_cons]

/-! ## A one bit and zeros -/

/-- The next bit has to be a one, and then only zeros may be left. -/
theorem oneThenZeros_cons (h : r.rest = bit :: tail) (name : String) (noOne : Error)
    (afterOne : Nat → Error) :
    (do
      unless ← flag name do throw noOne
      let r ← get
      if r.hasOne then throw (afterOne r.bitsLeft)
      consume) r =
      if bit = true then
        if tail.any id = true then .error (afterOne tail.length) (r.advance 1)
        else .ok ⟨⟩ (r.advance (tail.length + 1))
      else .error noOne (r.advance 1) := by
  have htail := rest_advance_one h
  dsimp only
  rw [bind_of_ok (flag_cons h name)]
  cases bit with
  | false => rfl
  | true =>
    rw [if_pos rfl, if_pos rfl, get_bind, Reader.hasOne_eq, htail, ← htail, Reader.length_rest]
    split
    · rfl
    · show EStateM.Result.ok _ ((r.advance 1).advance _) = _
      rw [Reader.advance_advance, Nat.add_comm]

theorem finishRbsp_nil (h : r.rest = []) :
    finishRbsp r = .error (.truncated "rbsp_stop_one_bit") r := by
  have hleft : r.bitsLeft = 0 := by rw [← Reader.length_rest, h, List.length_nil]
  unfold finishRbsp
  dsimp only
  rw [get_bind, if_pos hleft, throw_bind]

/-- The next bit tells whether the payload closes, and the bits after it whether it is the last. -/
theorem finishRbsp_cons (h : r.rest = bit :: tail) : finishRbsp r =
    if bit = true then
      if tail.any id = true then
        .error (.illegal "rbsp_trailing_bits" tail.length .nothingAfterStopBit) (r.advance 1)
      else .ok ⟨⟩ (r.advance (tail.length + 1))
    else .error (.illegal "rbsp_stop_one_bit" 0 .unstated) (r.advance 1) := by
  have hleft : r.bitsLeft ≠ 0 := by
    rw [← Reader.length_rest, h, List.length_cons]
    omega
  unfold finishRbsp
  dsimp only
  rw [get_bind, if_neg hleft]
  exact oneThenZeros_cons h "rbsp_stop_one_bit" (.illegal "rbsp_stop_one_bit" 0 .unstated)
    fun left => .illegal "rbsp_trailing_bits" left .nothingAfterStopBit

theorem finishSeiPayload_nil (h : r.rest = []) : finishSeiPayload r = .ok ⟨⟩ r := by
  have hleft : r.bitsLeft = 0 := by rw [← Reader.length_rest, h, List.length_nil]
  unfold finishSeiPayload
  dsimp only
  rw [get_bind, if_pos hleft]
  rfl

/-- The next bit tells whether the payload ends, and the bits after it whether it is the last one. -/
theorem finishSeiPayload_cons (h : r.rest = bit :: tail) : finishSeiPayload r =
    if bit = true then
      if tail.any id = true then
        .error (.illegal "sei_payload" tail.length .nothingAfterPayloadEnd) (r.advance 1)
      else .ok ⟨⟩ (r.advance (tail.length + 1))
    else .error (.illegal "bit_equal_to_one" 0 .nothingInPayload) (r.advance 1) := by
  have hleft : r.bitsLeft ≠ 0 := by
    rw [← Reader.length_rest, h, List.length_cons]
    omega
  unfold finishSeiPayload
  dsimp only
  rw [get_bind, if_neg hleft]
  exact oneThenZeros_cons h "bit_equal_to_one" (.illegal "bit_equal_to_one" 0 .nothingInPayload)
    fun left => .illegal "sei_payload" left .nothingAfterPayloadEnd

/-! ## The close -/

/-- The close takes all that is left. -/
theorem finishRbsp_of_rest {count : Nat} (h : r.rest = true :: List.replicate count false) :
    ∃ after, finishRbsp r = .ok ⟨⟩ after ∧ after.bitsLeft = 0 := by
  have hzeros : ¬(List.replicate count false).any id = true := by simp
  have hleft : r.bitsLeft = (List.replicate count false).length + 1 := by
    rw [← Reader.length_rest, h, List.length_cons]
  rw [finishRbsp_cons h, if_pos rfl, if_neg hzeros, ← hleft]
  exact ⟨_, rfl, Reader.bitsLeft_advance_bitsLeft r⟩

theorem rest_of_finishRbsp {after : Reader} {done : PUnit} (h : finishRbsp r = .ok done after) :
    ∃ count, r.rest = true :: List.replicate count false := by
  cases hrest : r.rest with
  | nil =>
    rw [finishRbsp_nil hrest] at h
    cases h
  | cons bit tail =>
    rw [finishRbsp_cons hrest] at h
    cases bit with
    | false => cases h
    | true =>
      by_cases hone : tail.any id = true
      · rw [if_pos rfl, if_pos hone] at h
        cases h
      · have hnone : true ∉ tail := by simpa using hone
        exact ⟨tail.length, congrArg _ (Bits.eq_zeros hnone)⟩

end Read

end H264
