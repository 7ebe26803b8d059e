import H264.Proofs.Framing.Interests

/-!
# Bytes before the first start code

What stands before the first start code is discarded in pieces: with each chunk all but the last two
bytes, which a start code could begin in. Zeros at the end of a piece do not count, for a start code
may follow them (`Framer.discard`); but where a piece ends inside the lead, something else follows.
So the count depends on the chunks, and is exact where no zero is left out before another byte.

* `leadPieces` — the lead, cut two bytes before the end of each chunk;
* `discarded_feed` — what one chunk adds to the count;
* **`discarded_counts_pieces`** — the count is that of the pieces, at most that of the lead, and
  when it is that of the lead.
-/

namespace H264.Framing

/-! ## Trimming in pieces -/

/-- How many bytes some pieces have, each trimmed on its own. -/
def trimmedLength (pieces : List Bytes) : Nat :=
  (pieces.flatMap trimZeros).length

theorem trimmedLength_cons (piece : Bytes) (pieces : List Bytes) :
    trimmedLength (piece :: pieces) = (trimZeros piece).length + trimmedLength pieces := by
  unfold trimmedLength
  rw [List.flatMap_cons, List.length_append]

/-- Every piece is followed by zeros only, unless it does not end in a zero. -/
def Unbroken (pieces : List Bytes) : Prop :=
  ∀ front piece back, pieces = front ++ piece :: back →
    trimZeros piece = piece ∨ ∀ byte ∈ back.flatten, byte = 0

theorem unbroken_cons_iff {piece : Bytes} {pieces : List Bytes} :
    Unbroken (piece :: pieces) ↔
      (trimZeros piece = piece ∨ ∀ byte ∈ pieces.flatten, byte = 0) ∧ Unbroken pieces := by
  constructor
  · intro h
    refine ⟨h [] piece pieces rfl, ?_⟩
    rintro front other back rfl
    exact h (piece :: front) other back rfl
  · rintro ⟨hpiece, hpieces⟩ front other back hsplit
    cases front with
    | nil =>
      obtain ⟨rfl, rfl⟩ := List.cons.inj hsplit
      exact hpiece
    | cons first front =>
      obtain ⟨rfl, hrest⟩ := List.cons.inj hsplit
      exact hpieces front other back hrest

/-- Trimmed one by one, pieces have no more bytes than trimmed together, and as many just if no
piece loses zeros that stand before something else. -/
theorem trimmedLength_pieces (pieces : List Bytes) :
    trimmedLength pieces ≤ (trimZeros pieces.flatten).length ∧
      (trimmedLength pieces = (trimZeros pieces.flatten).length ↔ Unbroken pieces) := by
  induction pieces with
  | nil =>
    refine ⟨Nat.le_refl 0, fun _ front piece back h => ?_, fun _ => rfl⟩
    cases front with
    | nil => cases h
    | cons => cases h
  | cons piece pieces ih =>
    obtain ⟨hle, heq⟩ := ih
    have hpiece := (isPrefix_trimZeros piece).length_le
    rw [unbroken_cons_iff, List.flatten_cons, trimZeros_append, trimmedLength_cons,
      ← trimZeros_eq_nil_iff, ← heq]
    by_cases hzeros : trimZeros pieces.flatten = []
    · rw [if_pos hzeros]
      rw [hzeros] at hle ⊢
      simp only [List.length_nil, Nat.le_zero_eq] at hle ⊢
      simp [hle]
    · have hfull : trimZeros piece = piece ↔ (trimZeros piece).length = piece.length :=
        ⟨congrArg List.length, (isPrefix_trimZeros piece).eq_of_length⟩
      rw [if_neg hzeros, List.length_append, hfull]
      refine ⟨by omega, ?_⟩
      simp only [hzeros, or_false]
      omega

namespace Framer

/-! ## The pieces of the lead -/

/-- What of a lead each chunk passes over, `received` bytes after the beginning: all up to the last
two bytes received; and what is left of it after the last chunk. -/
def leadPieces (lead : Bytes) : (received : Nat) → List Bytes → List Bytes
  | received, [] => [lead.drop (received - (startCode.length - 1))]
  | received, chunk :: chunks =>
    lead.extract (received - (startCode.length - 1))
        (received + chunk.length - (startCode.length - 1)) ::
      leadPieces lead (received + chunk.length) chunks

theorem drop_length_take (bytes : Bytes) (first last : Nat) :
    (bytes.take last).drop (bytes.take first).length = bytes.extract first last := by
  rw [List.extract_eq_take_drop, List.length_take, List.drop_take]
  by_cases h : first ≤ bytes.length
  · rw [Nat.min_eq_left h]
  · have hlen : bytes.length ≤ first := Nat.le_of_not_le h
    rw [Nat.min_eq_right hlen, List.drop_length, List.drop_eq_nil_of_le hlen, List.take_nil,
      List.take_nil]

/-- The pieces make the lead again. -/
theorem flatten_leadPieces (lead : Bytes) (received : Nat) (chunks : List Bytes) :
    (leadPieces lead received chunks).flatten =
      lead.drop (received - (startCode.length - 1)) := by
  induction chunks generalizing received with
  | nil => simp [leadPieces]
  | cons chunk chunks ih =>
    rw [leadPieces, List.flatten_cons, ih, List.extract_eq_take_drop]
    have hstart : received - (startCode.length - 1) +
        (received + chunk.length - (startCode.length - 1) -
          (received - (startCode.length - 1))) =
        received + chunk.length - (startCode.length - 1) := by omega
    rw [← hstart, ← List.drop_drop, Nat.add_sub_cancel_left, List.take_append_drop]

/-- What has been passed over for good is the lead of the whole stream, as far as the last two bytes
received do not hold it back. -/
theorem passedOver_eq_take (stream later : Bytes) :
    passedOver stream = (lead (stream ++ later)).take (stream.length - (startCode.length - 1)) := by
  cases hcut : cutAtStartCode stream with
  | none =>
    have hlen : (stream.take (stream.length - (startCode.length - 1))).length =
        stream.length - (startCode.length - 1) := by
      rw [List.length_take]
      omega
    have hwhole := cutAtStartCode_append_chunk hcut later
    have hpassed : passedOver stream = stream.take (stream.length - (startCode.length - 1)) := by
      simp only [passedOver, hcut]
    rw [hpassed]
    cases hlater : cutAtStartCode (tail stream ++ later) with
    | none =>
      rw [hlater, Option.map_none] at hwhole
      have hlead : lead (stream ++ later) = stream ++ later := by simp only [lead, hwhole]
      rw [hlead, List.take_append_of_le_length (Nat.sub_le _ _)]
    | some cut =>
      rw [hlater, Option.map_some] at hwhole
      have hlead : lead (stream ++ later) =
          stream.take (stream.length - (startCode.length - 1)) ++ cut.1 := by
        simp only [lead, hwhole]
      rw [hlead, List.take_left' hlen]
  | some cut =>
    obtain ⟨before, after⟩ := cut
    have hlen := length_of_cutAtStartCode hcut
    simp only [passedOver, hcut, lead, cutAtStartCode_append later hcut]
    rw [List.take_of_length_le]
    simp only [startCode, List.length_cons, List.length_nil]
    omega

/-! ## Counting -/

/-- One chunk counts what it passes over, less the zeros at its end. -/
theorem discarded_feed {framer : Framer} {stream : Bytes} (chunk : Bytes)
    (h : After stream framer) :
    (framer.feed chunk).2.discarded = framer.discarded +
      (trimZeros ((passedOver (stream ++ chunk)).drop (passedOver stream).length)).length := by
  by_cases hchunk : chunk = []
  · subst hchunk
    rw [List.append_nil, List.drop_length]
    rfl
  rw [feed_eq_receive framer hchunk]
  have hsearched := h.searched
  cases h with
  | inUnit cut phase pending _ _ =>
    obtain ⟨⟨before, after⟩, hcut⟩ := Option.isSome_iff_exists.mp cut
    have hsame : passedOver (stream ++ chunk) = passedOver stream := by
      simp only [passedOver, hcut, cutAtStartCode_append chunk hcut]
    rw [receive_inUnit phase hsearched, hsame, List.drop_length]
    rfl
  | seeking cut phase pending _ _ =>
    have hwhole := cutAtStartCode_append_chunk cut chunk
    have hpassed : passedOver stream = stream.take (stream.length - (startCode.length - 1)) := by
      simp only [passedOver, cut]
    cases hbuffer : cutAtStartCode (tail stream ++ chunk) with
    | none =>
      rw [hbuffer, Option.map_none] at hwhole
      have hmore : passedOver (stream ++ chunk) = passedOver stream ++
          (tail stream ++ chunk).take
            ((tail stream ++ chunk).length - (startCode.length - 1)) := by
        rw [hpassed, ← take_tail_append]
        simp only [passedOver, hwhole]
      rw [receive_seeking_none phase hsearched (by rw [pending, hbuffer]), hmore, List.drop_left,
        pending]
      rfl
    | some cut =>
      rw [hbuffer, Option.map_some] at hwhole
      have hmore : passedOver (stream ++ chunk) = passedOver stream ++ cut.1 := by
        rw [hpassed]
        simp only [passedOver, hwhole]
      rw [receive_seeking_some phase hsearched (by rw [pending, hbuffer]), hmore, List.drop_left]
      rfl

/-- The end of the stream counts what was held back. -/
theorem discarded_finish {framer : Framer} {stream : Bytes} (h : After stream framer) :
    framer.finish.2.discarded = framer.discarded +
      (trimZeros ((lead stream).drop (stream.length - (startCode.length - 1)))).length := by
  rw [finish_eq]
  cases h with
  | seeking cut phase pending _ _ =>
    have hlead : lead stream = stream := by simp only [lead, cut]
    rw [if_pos phase, hlead, pending]
    rfl
  | inUnit cut phase _ _ _ =>
    obtain ⟨⟨before, after⟩, hcut⟩ := Option.isSome_iff_exists.mp cut
    have hlen := length_of_cutAtStartCode hcut
    have hlead : lead stream = before := by simp only [lead, hcut]
    have hnothing : before.drop (stream.length - (startCode.length - 1)) = [] := by
      rw [List.drop_eq_nil_iff]
      simp only [startCode, List.length_cons, List.length_nil]
      omega
    rw [if_neg (by simp [phase]), hlead, hnothing]
    rfl

/-- A run of chunks and the end of the stream. -/
theorem discarded_feedAll {framer : Framer} {stream : Bytes} (chunks : List Bytes)
    (h : After stream framer) :
    (framer.feedAll chunks).2.finish.2.discarded = framer.discarded +
      trimmedLength (leadPieces (lead (stream ++ chunks.flatten)) stream.length chunks) := by
  induction chunks generalizing framer stream with
  | nil =>
    rw [List.flatten_nil, List.append_nil, leadPieces, trimmedLength_cons]
    exact discarded_finish h
  | cons chunk chunks ih =>
    have hwhole : stream ++ (chunk :: chunks).flatten = stream ++ chunk ++ chunks.flatten := by
      rw [List.flatten_cons, List.append_assoc]
    have hpiece : (passedOver (stream ++ chunk)).drop (passedOver stream).length =
        (lead (stream ++ (chunk :: chunks).flatten)).extract
          (stream.length - (startCode.length - 1))
          (stream.length + chunk.length - (startCode.length - 1)) := by
      rw [passedOver_eq_take stream (chunk :: chunks).flatten,
        passedOver_eq_take (stream ++ chunk) chunks.flatten, ← hwhole, List.length_append,
        drop_length_take]
    have hrest := ih (after_feed chunk h).1
    rw [discarded_feed chunk h, hpiece, ← hwhole, List.length_append] at hrest
    rw [feedAll]
    dsimp only
    rw [hrest, leadPieces, trimmedLength_cons, Nat.add_assoc]

end Framer

/-- **What is discarded before the first unit.** However a stream is cut into chunks, and whatever an
interest has ignored later, the bytes counted as discarded are those of the pieces in which the lead
is passed over, each less the zeros at its end. They are at most the bytes of the lead less the zeros
at its end, and are all of these just if no piece loses zeros that stand before something else. -/
theorem discarded_counts_pieces {σ : Type} (interest : Interest σ) (memory : σ)
    (chunks : List Bytes) :
    let lead := Framer.lead chunks.flatten
    let pieces := Framer.leadPieces lead 0 chunks
    let discarded := (Framer.frameWith interest memory {} chunks).2.discarded
    pieces.flatten = lead ∧ discarded = trimmedLength pieces ∧
      discarded ≤ (trimZeros lead).length ∧
      (discarded = (trimZeros lead).length ↔ Unbroken pieces) := by
  intro lead pieces discarded
  have hflatten : pieces.flatten = lead := Framer.flatten_leadPieces lead 0 chunks
  have hdiscarded : discarded = trimmedLength pieces := by
    have hcount := Framer.discarded_feedAll chunks Framer.after_nil
    rw [List.nil_append] at hcount
    show (Framer.frameWith interest memory {} chunks).2.discarded = _
    rw [Framer.discarded_frameWith, Framer.frame_eq, hcount]
    exact Nat.zero_add _
  obtain ⟨hle, heq⟩ := trimmedLength_pieces pieces
  rw [hflatten] at hle heq
  refine ⟨hflatten, hdiscarded, ?_, ?_⟩
  · rw [hdiscarded]
    exact hle
  · rw [hdiscarded]
    exact heq

/-- The lead `41 00 42` counts as three bytes in one chunk and as two where a chunk ends just after
it, so the count is not a function of the stream. -/
theorem discarded_depends_on_chunks :
    ¬(∀ chunks others : List Bytes, chunks.flatten = others.flatten →
      (Framer.frame {} chunks).2.discarded = (Framer.frame {} others).2.discarded) ∧
    ¬∀ chunks : List Bytes, (Framer.frame {} chunks).2.discarded =
      (trimZeros (Framer.lead chunks.flatten)).length := by
  have htwo : (Framer.frame {} [[0x41, 0, 0x42, 0], [0, 1, 0x65]]).2.discarded = 2 := by
    decide +kernel
  have hthree : (Framer.frame {} [[0x41, 0, 0x42, 0, 0, 1, 0x65]]).2.discarded = 3 := by
    decide +kernel
  constructor
  · intro h
    have hsame := h [[0x41, 0, 0x42, 0], [0, 1, 0x65]] [[0x41, 0, 0x42, 0, 0, 1, 0x65]] rfl
    rw [htwo, hthree] at hsame
    exact absurd hsame (by decide)
  · intro h
    have hexact := h [[0x41, 0, 0x42, 0], [0, 1, 0x65]]
    rw [htwo] at hexact
    exact absurd hexact (by decide +kernel)

end H264.Framing
