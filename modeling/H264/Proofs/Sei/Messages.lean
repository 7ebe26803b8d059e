import H264.Proofs.Bits.Aligned
import H264.Proofs.Bits.Closed
import H264.Sei.Message

/-!
# The messages of a payload

A payload of supplemental messages is their bytes, one message after the other, a byte 128 and zero
bytes (`SeiMessage.Carries`). Every field of a message is whole bytes, so a reader goes from the
start of a byte to the start of a byte.

* `readsBytes_read` and `takesBytes_read` — one message is read exactly from its bytes;
* `collect_of_carries` and `collect_cases` — the messages up to the close;
* **`messages_iff_carries`** — what is read is what the payload carries, and all else is an error.
-/

namespace H264.SeiMessage

/-! ## Numbers -/

theorem numberBytes_of_lt {number : Nat} (h : number < 255) :
    numberBytes number = [UInt8.ofNat number] := by
  unfold numberBytes
  rw [Nat.div_eq_of_lt h, Nat.mod_eq_of_lt h]
  rfl

theorem numberBytes_add (number : Nat) : numberBytes (255 + number) = 255 :: numberBytes number := by
  unfold numberBytes
  rw [Nat.add_div_left number (by decide), Nat.add_mod_left, List.replicate_succ]
  rfl

theorem div_lt_length_numberBytes (number : Nat) : number / 255 < (numberBytes number).length := by
  unfold numberBytes
  rw [List.length_append, List.length_replicate, List.length_singleton]
  omega

theorem readsBytes_readNumber (name : String) {number budget : Nat} (h : number / 255 < budget) :
    ReadsBytes (readNumber name budget) (numberBytes number) number := by
  induction budget generalizing number with
  | zero => omega
  | succ budget ih =>
    unfold readNumber
    by_cases hlast : number < 255
    · -- the last byte
      have hbyte : (UInt8.ofNat number).toNat = number := UInt8.toNat_ofNat_of_lt' (Nat.lt_trans hlast (by decide))
      have hnext := ReadsBytes.u8 (UInt8.ofNat number) name
      rw [hbyte] at hnext
      rw [numberBytes_of_lt hlast]
      refine hnext.bind ?_
      rw [if_neg (by omega)]
      exact .pure number
    · obtain ⟨less, rfl⟩ : ∃ less, number = 255 + less := ⟨number - 255, by omega⟩
      have hless : ReadsBytes (readNumber name budget) (numberBytes less) less := ih (by omega)
      have hsum : ReadsBytes (readNumber name budget >>= fun low => pure (255 + low))
          (numberBytes less ++ []) (255 + less) := hless.bind (.pure (255 + less))
      rw [List.append_nil] at hsum
      rw [numberBytes_add, ← List.singleton_append]
      refine (ReadsBytes.u8 255 name).bind ?_
      rw [if_pos (by decide)]
      exact hsum

/-- A number before the rest of an action: the bytes that are left bound those of the number. -/
theorem readsBytes_field {number : Nat} {next : Nat → Read SeiMessage} {back : Bytes}
    {message : SeiMessage} (name : String) (h : ReadsBytes (next number) back message) :
    ReadsBytes (do next (← readNumber name ((← get).bytesLeft + 1)))
      (numberBytes number ++ back) message := by
  refine .get fun r hr => (readsBytes_readNumber name ?_).bind h
  have hlength := div_lt_length_numberBytes number
  rw [List.length_append] at hr
  omega

theorem takesBytes_readNumber (name : String) (budget : Nat) :
    TakesBytes (readNumber name budget) fun number front => front = numberBytes number := by
  induction budget with
  | zero =>
    intro r bytes _
    rfl
  | succ budget ih =>
    unfold readNumber
    refine .bind (.u8 name) ?_
    rintro _ _ ⟨byte, rfl, rfl⟩
    by_cases hbyte : byte.toNat = 255
    · rw [if_pos hbyte]
      refine .bind ih ?_
      rintro less _ rfl
      refine .pure ?_
      have hfull : byte = 255 := UInt8.toNat_inj.mp hbyte
      rw [numberBytes_add, hfull, List.append_nil]
      rfl
    · rw [if_neg hbyte]
      refine .pure ?_
      have hlt := byte.toNat_lt
      rw [numberBytes_of_lt (by omega), UInt8.ofNat_toNat]
      rfl

/-! ## One message -/

/-- The last part of a message: so many bytes, as they are. -/
def readPayload (number size : Nat) : Read SeiMessage := do
  let r ← get
  if r.bytesLeft < size then throw (.truncated "sei_payload")
  Read.skip (8 * size) "sei_payload"
  return { type := ⟨number⟩, payload := (r.data.drop (r.pos / 8)).take size }

theorem read_eq :
    read = (do
      let number ← readNumber "last_payload_type_byte" ((← get).bytesLeft + 1)
      let size ← readNumber "last_payload_size_byte" ((← get).bytesLeft + 1)
      readPayload number size) :=
  rfl

theorem readPayload_of_le {r : Reader} {bytes : Bytes} (h : r.AtBytes bytes) (number : Nat)
    {size : Nat} (hsize : size ≤ bytes.length) :
    readPayload number size r =
      .ok { type := ⟨number⟩, payload := bytes.take size } (r.advance (8 * size)) := by
  have hskip : Read.skip (8 * size) "sei_payload" r = .ok ⟨⟩ (r.advance (8 * size)) :=
    Read.skip_of_le (by rw [h.bitsLeft_eq]; omega) _
  unfold readPayload
  dsimp only
  rw [get_bind, if_neg (by rw [h.bytesLeft_eq]; omega), bind_of_ok hskip, h.remaining]
  rfl

theorem readPayload_of_lt {r : Reader} {bytes : Bytes} (h : r.AtBytes bytes) (number : Nat)
    {size : Nat} (hsize : bytes.length < size) :
    readPayload number size r = .error (.truncated "sei_payload") r := by
  unfold readPayload
  dsimp only
  rw [get_bind, if_pos (by rw [h.bytesLeft_eq]; exact hsize)]
  rfl

theorem readsBytes_readPayload (number : Nat) (payload : Bytes) :
    ReadsBytes (readPayload number payload.length) payload { type := ⟨number⟩, payload } := by
  intro r rest h
  have hsize : payload.length ≤ (payload ++ rest).length := by
    rw [List.length_append]
    omega
  have hrun := readPayload_of_le h number hsize
  have hafter := h.advance payload.length
  rw [List.take_left] at hrun
  rw [List.drop_left] at hafter
  exact ⟨_, hrun, hafter⟩

theorem takesBytes_readPayload (number size : Nat) :
    TakesBytes (readPayload number size) fun message front =>
      message = { type := ⟨number⟩, payload := front } ∧ front.length = size := by
  intro r bytes h
  by_cases hsize : size ≤ bytes.length
  · rw [readPayload_of_le h number hsize]
    exact ⟨bytes.take size, bytes.drop size, ⟨rfl, List.length_take_of_le hsize⟩,
      (List.take_append_drop size bytes).symm, h.advance size⟩
  · rw [readPayload_of_lt h number (Nat.not_le.mp hsize)]
    rfl

theorem length_bytes_pos (message : SeiMessage) : 0 < message.bytes.length := by
  have hlength := div_lt_length_numberBytes message.type.number.toNat
  unfold bytes
  rw [List.length_append, List.length_append]
  omega

theorem readsBytes_read {message : SeiMessage} (h : 0 ≤ message.type.number) :
    ReadsBytes read message.bytes message := by
  obtain ⟨⟨number⟩, payload⟩ := message
  obtain ⟨number, rfl⟩ := Int.eq_ofNat_of_zero_le h
  show ReadsBytes read (numberBytes number ++ numberBytes payload.length ++ payload) _
  rw [read_eq, List.append_assoc]
  exact readsBytes_field _ (readsBytes_field _ (readsBytes_readPayload number payload))

theorem takesBytes_read :
    TakesBytes read fun message front => 0 ≤ message.type.number ∧ front = message.bytes := by
  rw [read_eq]
  refine .get fun r => .bind (takesBytes_readNumber _ _) ?_
  rintro number _ rfl
  refine .get fun r' => .bind (takesBytes_readNumber _ _) ?_
  rintro size _ rfl
  refine (takesBytes_readPayload number size).mono ?_
  rintro _ payload ⟨rfl, rfl⟩
  refine ⟨Int.natCast_nonneg number, ?_⟩
  rw [← List.append_assoc]
  rfl

/-! ## The close -/

theorem hasMore_of_close {r : Reader} {zeros : Nat}
    (h : r.AtBytes (0x80 :: List.replicate zeros 0)) : r.hasMore = false := by
  rw [Reader.hasMore_eq, h.rest_eq, Bytes.bits_close, List.drop_one, List.tail_cons,
    List.any_replicate]
  simp

theorem finishRbsp_of_close {r : Reader} {zeros : Nat}
    (h : r.AtBytes (0x80 :: List.replicate zeros 0)) :
    ∃ after, Read.finishRbsp r = .ok ⟨⟩ after := by
  obtain ⟨after, hclose, -⟩ := Read.finishRbsp_of_rest (h.rest_eq.trans (Bytes.bits_close zeros))
  exact ⟨after, hclose⟩

/-- What is left where the close fails is cut off or illegal. -/
theorem errorClass_of_finishRbsp {r after : Reader} {error : Error}
    (h : Read.finishRbsp r = .error error after) :
    error.errorClass = .truncated ∨ error.errorClass = .illegal := by
  unfold Read.finishRbsp at h
  dsimp only at h
  rw [get_bind] at h
  by_cases hempty : r.bitsLeft = 0
  · rw [if_pos hempty] at h
    cases h
    exact .inl rfl
  rw [if_neg hempty] at h
  obtain ⟨stop, hstop⟩ : ∃ stop, Read.flag "rbsp_stop_one_bit" r = .ok stop (r.advance 1) :=
    ⟨_, map_of_ok (Read.bits_eq_ok r _ (by decide) (by omega)) (· == 1)⟩
  rw [bind_of_ok hstop] at h
  cases stop with
  | false =>
    cases h
    exact .inr rfl
  | true =>
    rw [if_pos rfl, get_bind] at h
    cases hone : (r.advance 1).hasOne with
    | true =>
      rw [hone] at h
      cases h
      exact .inr rfl
    | false =>
      rw [hone] at h
      cases h

/-! ## Payloads -/

/-- A payload is the bytes of some messages, each with a type that can be sent, and the close. -/
structure Carries (data : Bytes) (messages : List SeiMessage) : Prop where
  sendable : ∀ message ∈ messages, 0 ≤ message.type.number
  split : ∃ zeros, data = messages.flatMap bytes ++ 0x80 :: List.replicate zeros 0

theorem Carries.cons {message : SeiMessage} {messages : List SeiMessage} {rest : Bytes}
    (hmessage : 0 ≤ message.type.number) (h : Carries rest messages) :
    Carries (message.bytes ++ rest) (message :: messages) where
  sendable := List.forall_mem_cons.mpr ⟨hmessage, h.sendable⟩
  split := by
    obtain ⟨zeros, rfl⟩ := h.split
    exact ⟨zeros, by rw [List.flatMap_cons, List.append_assoc]⟩

theorem Carries.of_cons {message : SeiMessage} {messages : List SeiMessage} {data : Bytes}
    (h : Carries data (message :: messages)) :
    0 ≤ message.type.number ∧ ∃ rest, data = message.bytes ++ rest ∧ Carries rest messages := by
  obtain ⟨hmessage, hmessages⟩ := List.forall_mem_cons.mp h.sendable
  obtain ⟨zeros, hsplit⟩ := h.split
  rw [List.flatMap_cons, List.append_assoc] at hsplit
  exact ⟨hmessage, _, hsplit, hmessages, zeros, rfl⟩

theorem Carries.length_lt {data : Bytes} {messages : List SeiMessage}
    (h : Carries data messages) : messages.length < data.length := by
  induction messages generalizing data with
  | nil =>
    obtain ⟨zeros, rfl⟩ := h.split
    exact Nat.zero_lt_succ _
  | cons message messages ih =>
    obtain ⟨-, rest, rfl, hrest⟩ := h.of_cons
    have hlength := ih hrest
    have hbytes := length_bytes_pos message
    rw [List.length_cons, List.length_append]
    omega

/-- The stop byte comes after every message. -/
theorem Carries.hasMore {message : SeiMessage} {messages : List SeiMessage} {rest : Bytes}
    (h : Carries rest messages) {r : Reader} (hbytes : r.AtBytes (message.bytes ++ rest)) :
    r.hasMore = true := by
  obtain ⟨zeros, rfl⟩ := h.split
  obtain ⟨byte, later, hmessage⟩ := List.exists_cons_of_length_pos (length_bytes_pos message)
  rw [hmessage] at hbytes
  exact hbytes.hasMore
    (List.mem_append_right _ (List.mem_append_right _ List.mem_cons_self)) (by decide)

/-! ## Reading payloads -/

theorem collect_of_carries {r : Reader} {data : Bytes} {messages : List SeiMessage} {budget : Nat}
    (h : Carries data messages) (hdata : r.AtBytes data) (hbudget : messages.length < budget) :
    collect budget r = (messages, none) := by
  induction messages generalizing r data budget with
  | nil =>
    obtain ⟨zeros, rfl⟩ := h.split
    obtain ⟨budget, rfl⟩ : ∃ less, budget = less + 1 := ⟨budget - 1, by omega⟩
    obtain ⟨after, hclose⟩ := finishRbsp_of_close hdata
    have hmore := hasMore_of_close hdata
    unfold collect
    rw [if_neg (by rw [hmore]; decide), hclose]
  | cons message messages ih =>
    obtain ⟨hmessage, rest, rfl, hrest⟩ := h.of_cons
    obtain ⟨budget, rfl⟩ : ∃ less, budget = less + 1 := ⟨budget - 1, by omega⟩
    obtain ⟨after, hrun, hafter⟩ := readsBytes_read hmessage r rest hdata
    unfold collect
    rw [if_pos (hrest.hasMore hdata), hrun]
    dsimp only
    rw [ih hrest hafter (Nat.lt_of_succ_lt_succ hbudget)]

/-- What reading comes to: the messages that the payload carries, or an error. -/
theorem collect_cases {r : Reader} {data : Bytes} {budget : Nat} (hdata : r.AtBytes data)
    (hbudget : data.length < budget) :
    match collect budget r with
    | (messages, none) => Carries data messages
    | (_, some error) => error.errorClass = .truncated ∨ error.errorClass = .illegal := by
  induction budget generalizing r data with
  | zero => omega
  | succ budget ih =>
    unfold collect
    by_cases hmore : r.hasMore
    · rw [if_pos hmore]
      have hread := takesBytes_read r data hdata
      cases hrun : read r with
      | error error after =>
        rw [hrun] at hread
        exact .inl hread
      | ok message after =>
        rw [hrun] at hread
        obtain ⟨_, rest, ⟨hmessage, rfl⟩, rfl, hafter⟩ := hread
        -- what is left is shorter, for a message has some bytes
        have hlength := length_bytes_pos message
        rw [List.length_append] at hbudget
        have hrest := ih hafter (by omega)
        dsimp only
        generalize collect budget after = found at hrest
        obtain ⟨messages, error⟩ := found
        cases error with
        | none => exact hrest.cons hmessage
        | some error => exact hrest
    · rw [if_neg hmore]
      cases hclose : Read.finishRbsp r with
      | error error after => exact errorClass_of_finishRbsp hclose
      | ok done after =>
        obtain ⟨count, hbits⟩ := Read.rest_of_finishRbsp hclose
        obtain ⟨zeros, hzeros⟩ := Bytes.exists_close_of_bits (hdata.rest_eq.symm.trans hbits)
        refine ⟨?_, zeros, hzeros⟩
        intro message hmem
        cases hmem

theorem messages_of_carries {data : Bytes} {found : List SeiMessage} (h : Carries data found) :
    messages data = .ok found := by
  have hlength := h.length_lt
  have hrun := collect_of_carries h (.start data) (Nat.lt_succ_of_lt hlength)
  unfold messages scan
  rw [hrun]

theorem messages_cases (data : Bytes) :
    match messages data with
    | .ok found => Carries data found
    | .error error => error.errorClass = .truncated ∨ error.errorClass = .illegal := by
  have hrun := collect_cases (.start data) (Nat.lt_succ_self data.length)
  unfold messages scan
  generalize collect (data.length + 1) (.start data) = ends at hrun
  obtain ⟨found, error⟩ := ends
  cases error with
  | none => exact hrun
  | some error => exact hrun

/-- **What is read is what a payload carries.** A payload gives just the messages that make it up
together with the close. It makes up no other messages, and a payload that is not made up so is cut
off or illegal. -/
theorem messages_iff_carries (data : Bytes) :
    (∀ found, messages data = .ok found ↔ Carries data found) ∧
    (∀ first second, Carries data first → Carries data second → first = second) ∧
    ((∀ found, ¬Carries data found) → ∃ error, messages data = .error error ∧
      (error.errorClass = .truncated ∨ error.errorClass = .illegal)) := by
  have hrun := messages_cases data
  refine ⟨fun found => ⟨fun h => ?_, messages_of_carries⟩, ?_, fun hnone => ?_⟩
  · rw [h] at hrun
    exact hrun
  · intro first second hfirst hsecond
    have hsame := (messages_of_carries hfirst).symm.trans (messages_of_carries hsecond)
    exact Except.ok.inj hsame
  · cases hend : messages data with
    | ok found =>
      rw [hend] at hrun
      exact absurd hrun (hnone found)
    | error error =>
      rw [hend] at hrun
      exact ⟨error, rfl, hrun⟩

/-- A message whose type is the number of the stop byte, and one that swallows the stop byte. -/
theorem messages_iff_carries_stopByte :
    Carries [0x80, 0x00, 0x80, 0x00] [{ type := ⟨128⟩, payload := [] }] ∧
      ∃ error, messages [0x05, 0x01, 0x80] = .error error ∧
        (error.errorClass = .truncated ∨ error.errorClass = .illegal) := by
  have hswallowed : messages [0x05, 0x01, 0x80] = .error (.truncated "rbsp_stop_one_bit") := by
    decide +kernel
  refine ⟨((messages_iff_carries _).1 _).mp (by decide +kernel), ?_⟩
  refine (messages_iff_carries _).2.2 fun found hfound => ?_
  have hread := ((messages_iff_carries _).1 found).mpr hfound
  rw [hswallowed] at hread
  cases hread

end H264.SeiMessage
