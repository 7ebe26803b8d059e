import H264.Proofs.Bits.Closed
import H264.Sei.Message

/-!
# Payloads of messages

The width of a field of a message may come from the sequence that the message belongs to:
`Read.Holds` and `Read.HoldsSigned` say that such a field can be read and holds a value. After the
last field nothing is left, or a one bit and zeros that fill up the bytes: `PayloadEnd`, and
`Read.ended` reads some fields and this end. Main statements: with fields that are read back and
that take nothing else, `value_ended_iff` says which payloads are read, `value_ended_of_later_one`
that a one bit after the one of the end is an error, and `exists_writer_ended` that what a writer
makes of the fields is read back.
-/

namespace H264

open Read

/-! ## Fields of a stated width -/

/-- A field of `width` bits can be read, and it holds `value`. -/
structure Read.Holds (width value : Nat) : Prop where
  readable : width ≤ maxWidth
  inRange : value < 2 ^ width

/-- A two's complement field of `width` bits can be read, and it holds `value`. -/
structure Read.HoldsSigned (width : Nat) (value : Int) : Prop where
  positive : 0 < width
  readable : width ≤ maxWidth
  least : -2 ^ (width - 1) ≤ value
  greatest : value < 2 ^ (width - 1)

theorem Accepts.held (width : Nat) (name : String) :
    Accepts (Read.bits width name) (Holds width) fun value => [.u width value] := by
  intro r value after hrun
  obtain ⟨_, tail, ⟨hvalue, rfl⟩, hrest⟩ := Accepts.bits width name r value after hrun
  have hwidth : width ≤ maxWidth := by
    by_contra hwide
    unfold Read.bits at hrun
    rw [if_pos (Nat.not_le.mp hwide)] at hrun
    cases hrun
  exact ⟨_, tail, ⟨⟨hwidth, hvalue⟩, rfl⟩, hrest⟩

theorem ReadsBack.held {width value : Nat} (name : String) (h : Holds width value) :
    ReadsBack (Read.bits width name) [.u width value] value :=
  .bits name h.readable h.inRange

theorem Accepts.heldSigned {width : Nat} (name : String) (hwidth : 0 < width) :
    Accepts (Read.signed width name) (HoldsSigned width) fun value => [.i width value] := by
  -- the code of the value has the bits of the pattern that was read
  have hpattern : Takes (Read.signed width name) fun value elements =>
      HoldsSigned width value ∧ Element.bits elements = Codeword.twosComplement width value := by
    refine .part (.held width name) fun pattern hpattern => .pure ⟨?_, ?_⟩
    · obtain ⟨hleast, hgreatest⟩ := Codeword.signedOfPattern_range hwidth hpattern.inRange
      exact ⟨hwidth, hpattern.readable, hleast, hgreatest⟩
    · rw [Codeword.twosComplement_signedOfPattern hpattern.inRange, List.append_nil,
        Element.bits_cons, Element.codeword_u, Element.bits_nil, List.append_nil]
  refine hpattern.recode fun value elements ⟨hvalue, hbits⟩ => ⟨_, ⟨hvalue, rfl⟩, ?_⟩
  rw [hbits, Element.bits_cons, Element.bits_nil, List.append_nil]
  rfl

theorem ReadsBack.heldSigned {width : Nat} {value : Int} (name : String)
    (h : HoldsSigned width value) :
    ReadsBack (Read.signed width name) [.i width value] value where
  fits := by
    rw [List.forall_mem_singleton]
    refine ⟨Int.natCast_pos.mpr h.positive, ?_, ?_⟩
    · rw [Int.toNat_natCast, Codeword.natCast_one_shiftLeft]
      exact h.least
    · rw [Int.toNat_natCast, Codeword.natCast_one_shiftLeft]
      exact h.greatest
  reads := by
    have hread := Reads.signed name h.positive h.readable h.least h.greatest
    rw [Element.bits_cons, Element.bits_nil, List.append_nil]
    exact hread

/-! ## The end of a payload -/

/-- Nothing, or a one bit and zeros. -/
def PayloadEnd (bits : List Bool) : Prop :=
  bits = [] ∨ ∃ count, bits = true :: List.replicate count false

namespace Read

/-- Some fields, and the end of a payload. -/
def ended {α : Type} (fields : Read α) : Read α := do
  let value ← fields
  finishSeiPayload
  return value

/-- What is left where a payload ends. -/
theorem exists_finishSeiPayload_iff {r : Reader} :
    (∃ after, finishSeiPayload r = .ok ⟨⟩ after) ↔ PayloadEnd r.rest := by
  cases hrest : r.rest with
  | nil => exact iff_of_true ⟨r, finishSeiPayload_nil hrest⟩ (.inl rfl)
  | cons bit tail =>
    rw [finishSeiPayload_cons hrest]
    constructor
    · rintro ⟨after, hrun⟩
      cases bit with
      | false => cases hrun
      | true =>
        rw [if_pos rfl] at hrun
        split at hrun
        · cases hrun
        · rename_i hone
          have hnone : true ∉ tail := by simpa using hone
          exact .inr ⟨tail.length, congrArg _ (Bits.eq_zeros hnone)⟩
    · rintro (hnil | ⟨count, hend⟩)
      · cases hnil
      · obtain ⟨rfl, rfl⟩ := List.cons.inj hend
        rw [if_pos rfl, if_neg (by simp)]
        exact ⟨_, rfl⟩

/-! ## Fields and the end -/

section

variable {α : Type} {fields : Read α} {elements : List Element} {value : α} {data : Bytes}

theorem exists_run_of_readsBack (h : ReadsBack fields elements value) {tail : List Bool}
    (hdata : Bytes.bits data = Element.bits elements ++ tail) :
    ∃ mid, fields { data } = .ok value mid ∧ mid.rest = tail := by
  refine ⟨_, h.reads { data } tail hdata, ?_⟩
  rw [Reader.rest_advance]
  exact (congrArg _ hdata).trans List.drop_left

theorem value_ended_of_end (h : ReadsBack fields elements value) {ending : List Bool}
    (hend : PayloadEnd ending) (hdata : Bytes.bits data = Element.bits elements ++ ending) :
    Read.value (ended fields) data = .ok value := by
  obtain ⟨mid, hfields, rfl⟩ := exists_run_of_readsBack h hdata
  obtain ⟨after, hfinish⟩ := exists_finishSeiPayload_iff.mpr hend
  have hrun : ended fields { data } = .ok value after := by
    unfold ended
    rw [bind_of_ok hfields, bind_of_ok hfinish]
    rfl
  exact value_of_ok hrun

/-- A one bit after the one of the end is an error. -/
theorem value_ended_of_later_one (h : ReadsBack fields elements value) {tail : List Bool}
    (hone : true ∈ tail) (hdata : Bytes.bits data = Element.bits elements ++ true :: tail) :
    Read.value (ended fields) data =
      .error (.illegal "sei_payload" tail.length .nothingAfterPayloadEnd) := by
  obtain ⟨mid, hfields, hrest⟩ := exists_run_of_readsBack h hdata
  have hfinish := finishSeiPayload_cons hrest
  rw [if_pos rfl, if_pos (List.any_eq_true.mpr ⟨true, hone, rfl⟩)] at hfinish
  have hrun : ended fields { data } =
      .error (.illegal "sei_payload" tail.length .nothingAfterPayloadEnd) (mid.advance 1) := by
    unfold ended
    rw [bind_of_ok hfields]
    exact bind_of_error hfinish _
  exact value_of_error hrun

/-- The payloads that are read are the writing of some elements and an end. -/
theorem value_ended_iff {post : α → List Element → Prop} (htakes : Takes fields post)
    (hback : ∀ value elements, post value elements → ReadsBack fields elements value) :
    Read.value (ended fields) data = .ok value ↔ ∃ elements ending, post value elements ∧
      PayloadEnd ending ∧ Bytes.bits data = Element.bits elements ++ ending := by
  constructor
  · intro hvalue
    obtain ⟨after, hrun⟩ := exists_run_of_value hvalue
    unfold ended at hrun
    cases hfields : fields { data } with
    | error error mid =>
      rw [bind_of_error hfields] at hrun
      cases hrun
    | ok found mid =>
      rw [bind_of_ok hfields] at hrun
      cases hfinish : finishSeiPayload mid with
      | error error last =>
        rw [bind_of_error hfinish] at hrun
        cases hrun
      | ok done last =>
        rw [bind_of_ok hfinish] at hrun
        cases hrun
        obtain ⟨elements, tail, hpost, hrest, rfl⟩ := htakes _ _ _ hfields
        have hend := exists_finishSeiPayload_iff.mp ⟨_, hfinish⟩
        rw [Reader.rest_advance, hrest, List.drop_left] at hend
        exact ⟨elements, tail, hpost, hend, hrest⟩
  · rintro ⟨elements, ending, hpost, hend, hdata⟩
    exact value_ended_of_end (hback value elements hpost) hend hdata

/-- What a writer makes of the elements is read back when it is closed, with zero bytes after it, and
also as it is, if it fills its bytes. -/
theorem exists_writer_ended (h : ReadsBack fields elements value) :
    ∃ w, Element.writeAll {} elements = .ok w ∧
      (∀ zeros, Read.value (ended fields) (w.trailing.toBytes ++ List.replicate zeros 0) =
        .ok value) ∧
      (w.bits.length % 8 = 0 → Read.value (ended fields) w.toBytes = .ok value) := by
  refine ⟨_, Element.writeAll_of_fits {} h.fits, fun zeros => ?_, fun hfull => ?_⟩
  · obtain ⟨count, hbits⟩ := Writer.exists_bits_trailing (Writer.append {} _) zeros
    rw [Writer.bits_append_empty] at hbits
    exact value_ended_of_end h (.inr ⟨count, rfl⟩) hbits
  · refine value_ended_of_end h (.inl rfl) ?_
    have hnone : (Writer.append {} (Element.bits elements)).missing = 0 := by
      rw [Writer.length_bits] at hfull
      rw [Writer.missing, hfull]
    rw [Writer.bits_toBytes, hnone, List.replicate_zero, Writer.bits_append_empty]

end

end Read

/-! ## Messages -/

/-- A payload is decoded if it is of the type that is asked for. -/
theorem SeiMessage.bind_payloadAs_eq_ok_iff {α : Type} {message : SeiMessage}
    {expected : PayloadType} {decode : Bytes → Except Error α} {value : α} :
    message.payloadAs expected >>= decode = .ok value ↔
      message.type = expected ∧ decode message.payload = .ok value := by
  unfold payloadAs
  by_cases htype : message.type = expected
  · rw [if_pos htype]
    exact (and_iff_right htype).symm
  · rw [if_neg htype]
    exact iff_of_false nofun fun h => htype h.1

end H264
