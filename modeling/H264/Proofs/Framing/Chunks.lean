import H264.ErrorClass
import H264.Framing.AnnexB
import H264.Proofs.Framing.Occurrences

/-!
# Framing in chunks

A framer that keeps every unit frames the same units however a stream is cut into chunks. What it
holds between chunks is a function of the whole stream so far (`Framer.After`): before the first
start code the last two bytes, later the last stretch, searched but for its last two bytes
(`Searched`: no start code can begin before the place from which the search goes on).
`after_feed` is the step, `after_feedAll` the run; `map_bytes_frame` says which units a whole stream
gives, and `feedAll_addCounts` that a framer which has taken the end of a stream frames the next one
like a new one.
-/

namespace H264.Framing

/-! ## Units of stretches -/

theorem trimmed_append (front back : List Bytes) :
    trimmed (front ++ back) = trimmed front ++ trimmed back := by
  simp [trimmed]

theorem map_bytes_unitsOf (segments : List NalUnit) :
    (unitsOf segments).map NalUnit.bytes = trimmed (segments.map NalUnit.bytes) := by
  induction segments with
  | nil => rfl
  | cons segment segments ih =>
    simp only [unitsOf, trimmed, List.map_cons] at ih ⊢
    by_cases h : trimZeros segment.bytes = []
    · simp [h, ih]
    · simp [h, ih]

theorem trimZeros_eq_nil_iff {bytes : Bytes} : trimZeros bytes = [] ↔ ∀ byte ∈ bytes, byte = 0 := by
  show bytes.rdropWhile (· == 0) = [] ↔ _
  simp [List.rdropWhile_eq_nil_iff]

theorem trimZeros_append (front back : Bytes) :
    trimZeros (front ++ back) =
      if trimZeros back = [] then trimZeros front else front ++ trimZeros back := by
  simp only [trimZeros, List.reverse_append, List.dropWhile_append, List.isEmpty_iff,
    List.reverse_eq_nil_iff]
  by_cases h : back.reverse.dropWhile (· == 0) = []
  · rw [if_pos h, if_pos h]
  · rw [if_neg h, if_neg h, List.reverse_append, List.reverse_reverse]

namespace Framer

/-! ## A framer that keeps everything -/

theorem wants_all (unit : NalUnit) (complete : Bool) (state : Framer × Unit) :
    (wants Interest.all unit complete).run state = pure (true, state) := rfl

theorem select_all (units : List NalUnit) (state : Framer × Unit) :
    (select Interest.all units).run state = pure (units, state) := by
  induction units with
  | nil => rfl
  | cons unit units ih =>
    simp only [select, StateT.run_bind, wants_all, pure_bind, ih, StateT.run_pure, if_true]

theorem reviewOpen_all (state : Framer × Unit) :
    (reviewOpen Interest.all).run state = pure ((), state) := by
  obtain ⟨framer, memory⟩ := state
  simp only [reviewOpen, StateT.run_bind, StateT.run_get, pure_bind]
  cases framer.openUnit? with
  | none => rfl
  | some unit => rfl

theorem feed_nil (framer : Framer) : framer.feed [] = ([], framer) := rfl

theorem feed_eq_receive (framer : Framer) {chunk : Bytes} (h : chunk ≠ []) :
    framer.feed chunk = framer.receive chunk := by
  have hempty : ¬chunk.isEmpty = true := by simpa using h
  simp only [feed, push, if_neg hempty, StateT.run_bind, StateT.run_get, StateT.run_set, pure_bind,
    select_all, reviewOpen_all]
  rfl

theorem finish_eq (framer : Framer) :
    framer.finish = (framer.openUnit?.toList,
      (if framer.phase = .seeking then framer.discard framer.pending else framer).reset) := by
  simp only [finish, flush, StateT.run_bind, StateT.run_get, pure_bind, select_all]
  rfl

/-- The framer after some chunks, with the units that they complete. -/
def feedAll (framer : Framer) : List Bytes → List NalUnit × Framer
  | [] => ([], framer)
  | chunk :: chunks =>
    let (units, framer) := framer.feed chunk
    let (later, framer) := feedAll framer chunks
    (units ++ later, framer)

/-- The units of a stream given in chunks, and the framer after its end. -/
def frame (framer : Framer) (chunks : List Bytes) : List NalUnit × Framer :=
  let (units, framer, _) := (pushAll Interest.all chunks).run (framer, ())
  (units, framer)

theorem feed_eq_push (framer : Framer) (chunk : Bytes) :
    (push Interest.all chunk).run (framer, ()) =
      pure ((framer.feed chunk).1, (framer.feed chunk).2, ()) := rfl

theorem finish_eq_flush (framer : Framer) :
    (flush Interest.all).run (framer, ()) = pure (framer.finish.1, framer.finish.2, ()) := rfl

theorem frame_eq (framer : Framer) (chunks : List Bytes) :
    framer.frame chunks =
      ((framer.feedAll chunks).1 ++ (framer.feedAll chunks).2.finish.1,
        (framer.feedAll chunks).2.finish.2) := by
  -- the memory of an interest that keeps everything never changes, so the framer alone is followed
  have hpushes : ∀ framer : Framer, ∃ units,
      (chunks.mapM (push Interest.all)).run (framer, ()) =
        pure (units, (framer.feedAll chunks).2, ()) ∧
      units.flatten = (framer.feedAll chunks).1 := by
    induction chunks with
    | nil => exact fun framer => ⟨[], rfl, rfl⟩
    | cons chunk chunks ih =>
      intro framer
      obtain ⟨units, hrun, hunits⟩ := ih (framer.feed chunk).2
      refine ⟨(framer.feed chunk).1 :: units, ?_, ?_⟩
      · rw [List.mapM_cons, StateT.run_bind, feed_eq_push, pure_bind, StateT.run_bind, hrun]
        rfl
      · rw [List.flatten_cons, hunits]
        rfl
  obtain ⟨units, hrun, hunits⟩ := hpushes framer
  simp only [frame, pushAll, StateT.run_bind, hrun, pure_bind, finish_eq_flush, hunits]
  rfl

/-! ## What a framer holds -/

/-- The bytes that a framer has passed over for good after a stream: those before the first start
code, or, where there is none, all that cannot begin one. -/
def passedOver (stream : Bytes) : Bytes :=
  match cutAtStartCode stream with
  | none => stream.take (stream.length - (startCode.length - 1))
  | some (before, _) => before

/-- The state of a framer after a stream, all of it received. -/
inductive After (stream : Bytes) (framer : Framer) : Prop
  | seeking (cut : cutAtStartCode stream = none) (phase : framer.phase = .seeking)
      (pending : framer.pending = tail stream) (scanned : framer.scanned = 0)
      (discarded : framer.discarded = 0 ↔ ∀ byte ∈ passedOver stream, byte = 0)
  | inUnit (cut : (cutAtStartCode stream).isSome) (phase : framer.phase = .inUnit)
      (pending : framer.pending = lastStretch stream)
      (scanned : framer.scanned = (lastStretch stream).length - (startCode.length - 1))
      (discarded : framer.discarded = 0 ↔ ∀ byte ∈ passedOver stream, byte = 0)

theorem after_nil : After [] {} := by
  refine .seeking rfl rfl rfl rfl ?_
  simp [passedOver, cutAtStartCode]

/-- The stretches that lie between two start codes. -/
def closedStretches (stream : Bytes) : List Bytes :=
  (stretches stream).tail.dropLast

theorem closedStretches_of_none {stream : Bytes} (h : cutAtStartCode stream = none) :
    closedStretches stream = [] := by
  rw [closedStretches, stretches_of_none h]
  rfl

theorem closedStretches_of_some {stream before after : Bytes}
    (h : cutAtStartCode stream = some (before, after)) :
    closedStretches stream = (stretches after).dropLast := by
  rw [closedStretches, stretches_of_some h]
  rfl

/-- Where a unit is in progress, more bytes close what they cut from it. -/
theorem closedStretches_append {stream : Bytes} (h : (cutAtStartCode stream).isSome)
    (later : Bytes) :
    closedStretches (stream ++ later) =
      closedStretches stream ++ (stretches (lastStretch stream ++ later)).dropLast := by
  obtain ⟨⟨before, after⟩, hcut⟩ := Option.isSome_iff_exists.mp h
  rw [closedStretches_of_some hcut, closedStretches_of_some (cutAtStartCode_append later hcut),
    lastStretch_of_some hcut, stretches_append,
    List.dropLast_append_of_ne_nil (stretches_ne_nil _)]

/-- The last stretch is the one that no start code has closed. -/
theorem tail_stretches_of_isSome {stream : Bytes} (h : (cutAtStartCode stream).isSome) :
    (stretches stream).tail = closedStretches stream ++ [lastStretch stream] := by
  obtain ⟨⟨before, after⟩, hcut⟩ := Option.isSome_iff_exists.mp h
  rw [closedStretches_of_some hcut, lastStretch_of_some hcut, stretches_of_some hcut,
    List.tail_cons, lastStretch, List.dropLast_append_getLast]

/-- Entering the last of some segments completes the others. -/
theorem enter_segments (framer : Framer) (offset : Nat) (bytes : Bytes) :
    (framer.enter (segments offset bytes)).1.map NalUnit.bytes =
        trimmed (stretches bytes).dropLast ∧
      (framer.enter (segments offset bytes)).2 =
        { framer with
          phase := .inUnit
          pending := lastStretch bytes
          scanned := (lastStretch bytes).length - (startCode.length - 1) } := by
  constructor
  · rw [enter, map_bytes_unitsOf, List.map_dropLast, map_bytes_segments]
  · have hlast : (segments offset bytes).getLast?.map NalUnit.bytes =
        some (lastStretch bytes) := by
      rw [← List.getLast?_map, map_bytes_segments,
        List.getLast?_eq_some_getLast (stretches_ne_nil bytes)]
      rfl
    rw [enter, hlast]
    rfl

/-! ## Where the search goes on -/

/-- What a framer holds has been searched: there is no start code in it, and the place from which
the search goes on is not after the first of its last two bytes. -/
structure Searched (framer : Framer) : Prop where
  cut : cutAtStartCode framer.pending = none
  scanned : framer.scanned ≤ framer.pending.length - (startCode.length - 1)

theorem searched_keepTail (framer : Framer) (bytes : Bytes) : (framer.keepTail bytes).Searched where
  cut := by
    refine cutAtStartCode_of_length_lt ?_
    simp only [keepTail, tail, List.length_drop, startCode, List.length_cons, List.length_nil]
    omega
  scanned := Nat.zero_le _

theorem searched_enter (framer : Framer) (offset : Nat) (bytes : Bytes) :
    (framer.enter (segments offset bytes)).2.Searched := by
  rw [(framer.enter_segments offset bytes).2]
  exact ⟨cutAtStartCode_lastStretch bytes, le_rfl⟩

namespace Searched

variable {framer : Framer}

theorem resume_le (h : framer.Searched) :
    framer.resume ≤ framer.pending.length - (startCode.length - 1) := by
  unfold resume
  split
  · exact Nat.zero_le _
  · exact h.scanned

/-- The search that goes on finds what a search from the beginning would find. -/
theorem cutFrom_resume (h : framer.Searched) (chunk : Bytes) :
    cutFrom framer.resume (framer.pending ++ chunk) = cutAtStartCode (framer.pending ++ chunk) :=
  cutFrom_append chunk h.cut h.resume_le

/-- Whatever comes after it, no start code begins in what is not searched again. -/
theorem not_startCode (h : framer.Searched) (later : Bytes) {place : Nat}
    (hplace : place < framer.resume) :
    ¬startCode <+: (framer.pending ++ later).drop place := by
  have hle := h.resume_le
  have hlen : startCode.length = 3 := rfl
  rw [List.drop_append_of_le_length (by omega)]
  intro hbegins
  -- what is held reaches far enough behind the place to hold the whole start code
  have hheld : startCode <+: framer.pending.drop place := by
    refine List.prefix_of_prefix_length_le hbegins (List.prefix_append _ _) ?_
    rw [List.length_drop]
    omega
  exact not_infix_of_cutAtStartCode h.cut
    (hheld.isInfix.trans (List.drop_suffix place framer.pending).isInfix)

end Searched

theorem After.searched {stream : Bytes} {framer : Framer} (h : After stream framer) :
    framer.Searched := by
  cases h with
  | seeking cut phase pending scanned _ =>
    refine ⟨?_, scanned.trans_le (Nat.zero_le _)⟩
    rw [pending]
    exact (searched_keepTail framer stream).cut
  | inUnit cut phase pending scanned _ =>
    refine ⟨?_, ?_⟩
    · rw [pending]
      exact cutAtStartCode_lastStretch stream
    · rw [pending, scanned]

/-! ## One chunk -/

theorem receive_inUnit {framer : Framer} {chunk : Bytes} (h : framer.phase = .inUnit)
    (hsearched : framer.Searched) :
    framer.receive chunk = framer.enter (segments 0 (framer.pending ++ chunk)) := by
  simp only [receive, h, segmentsFrom_eq (hsearched.cutFrom_resume chunk)]

theorem receive_seeking_none {framer : Framer} {chunk : Bytes} (h : framer.phase = .seeking)
    (hsearched : framer.Searched) (hcut : cutAtStartCode (framer.pending ++ chunk) = none) :
    framer.receive chunk =
      ([], (framer.discard ((framer.pending ++ chunk).take
        ((framer.pending ++ chunk).length - (startCode.length - 1)))).keepTail
          (framer.pending ++ chunk)) := by
  simp only [receive, h, hsearched.cutFrom_resume, hcut]

theorem receive_seeking_some {framer : Framer} {chunk before after : Bytes}
    (h : framer.phase = .seeking) (hsearched : framer.Searched)
    (hcut : cutAtStartCode (framer.pending ++ chunk) = some (before, after)) :
    framer.receive chunk =
      (framer.discard before).enter (segments (before.length + 3) after) := by
  simp only [receive, h, hsearched.cutFrom_resume, hcut]

theorem receive_ignoring_none {framer : Framer} {chunk : Bytes} (h : framer.phase = .ignoring)
    (hsearched : framer.Searched) (hcut : cutAtStartCode (framer.pending ++ chunk) = none) :
    framer.receive chunk = ([], framer.keepTail (framer.pending ++ chunk)) := by
  simp only [receive, h, hsearched.cutFrom_resume, hcut]

theorem receive_ignoring_some {framer : Framer} {chunk before after : Bytes}
    (h : framer.phase = .ignoring) (hsearched : framer.Searched)
    (hcut : cutAtStartCode (framer.pending ++ chunk) = some (before, after)) :
    framer.receive chunk = framer.enter (segments (before.length + 3) after) := by
  simp only [receive, h, hsearched.cutFrom_resume, hcut]

/-- The step of the search: what a framer holds after a chunk has been searched too. -/
theorem searched_receive {framer : Framer} (h : framer.Searched) (chunk : Bytes) :
    (framer.receive chunk).2.Searched := by
  cases hphase : framer.phase with
  | inUnit =>
    rw [receive_inUnit hphase h]
    exact framer.searched_enter 0 _
  | seeking =>
    cases hcut : cutAtStartCode (framer.pending ++ chunk) with
    | none =>
      rw [receive_seeking_none hphase h hcut]
      exact searched_keepTail _ _
    | some cut =>
      rw [receive_seeking_some hphase h hcut]
      exact (framer.discard cut.1).searched_enter _ _
  | ignoring =>
    cases hcut : cutAtStartCode (framer.pending ++ chunk) with
    | none =>
      rw [receive_ignoring_none hphase h hcut]
      exact searched_keepTail _ _
    | some cut =>
      rw [receive_ignoring_some hphase h hcut]
      exact framer.searched_enter _ _

theorem after_enter {framer : Framer} {stream before after : Bytes} (offset : Nat) (bytes : Bytes)
    (hcut : cutAtStartCode stream = some (before, after))
    (hlast : lastStretch bytes = lastStretch stream)
    (hdiscarded : framer.discarded = 0 ↔ ∀ byte ∈ before, byte = 0) :
    After stream (framer.enter (segments offset bytes)).2 := by
  rw [(framer.enter_segments offset bytes).2, hlast]
  refine .inUnit (by simp [hcut]) rfl rfl rfl ?_
  simpa [passedOver, hcut] using hdiscarded

/-- Passing over some bytes counts something just if one of them is not zero. -/
theorem discard_eq_zero_iff (framer : Framer) (bytes passed : Bytes)
    (h : framer.discarded = 0 ↔ ∀ byte ∈ passed, byte = 0) :
    (framer.discard bytes).discarded = 0 ↔ ∀ byte ∈ passed ++ bytes, byte = 0 := by
  show framer.discarded + (trimZeros bytes).length = 0 ↔ _
  rw [Nat.add_eq_zero_iff, h, List.length_eq_zero_iff, trimZeros_eq_nil_iff,
    List.forall_mem_append]

theorem append_tail (stream : Bytes) :
    stream.take (stream.length - (startCode.length - 1)) ++ tail stream = stream :=
  List.take_append_drop _ stream

/-- The last two bytes, unless there are not even two. -/
theorem length_tail (stream : Bytes) :
    stream.take (stream.length - (startCode.length - 1)) = [] ∨ 2 ≤ (tail stream).length := by
  have hlen : startCode.length = 3 := rfl
  rw [tail, List.length_drop, hlen]
  by_cases h : 2 ≤ stream.length
  · right
    omega
  · left
    rw [show stream.length - (3 - 1) = 0 from by omega, List.take_zero]

theorem tail_append (front back : Bytes) (h : front = [] ∨ 2 ≤ back.length) :
    tail (front ++ back) = tail back := by
  have hlen : startCode.length = 3 := rfl
  rcases h with rfl | h
  · rfl
  · rw [tail, tail, hlen, List.length_append,
      show front.length + back.length - (3 - 1) = front.length + (back.length - (3 - 1)) from by
        omega, List.drop_append]
    simp

theorem take_append (front back : Bytes) (h : front = [] ∨ 2 ≤ back.length) :
    (front ++ back).take ((front ++ back).length - (startCode.length - 1)) =
      front ++ back.take (back.length - (startCode.length - 1)) := by
  have hlen : startCode.length = 3 := rfl
  rcases h with rfl | h
  · rfl
  · rw [hlen, List.length_append,
      show front.length + back.length - (3 - 1) = front.length + (back.length - (3 - 1)) from by
        omega, List.take_append, List.take_of_length_le (by omega), Nat.add_sub_cancel_left]

theorem length_tail_append (stream chunk : Bytes) :
    stream.take (stream.length - (startCode.length - 1)) = [] ∨
      2 ≤ (tail stream ++ chunk).length := by
  rw [List.length_append]
  rcases length_tail stream with h | h
  · exact .inl h
  · right
    omega

theorem tail_tail_append (stream chunk : Bytes) :
    tail (tail stream ++ chunk) = tail (stream ++ chunk) := by
  rw [← tail_append _ _ (length_tail_append stream chunk), ← List.append_assoc, append_tail]

theorem take_tail_append (stream chunk : Bytes) :
    (stream ++ chunk).take ((stream ++ chunk).length - (startCode.length - 1)) =
      stream.take (stream.length - (startCode.length - 1)) ++ (tail stream ++ chunk).take
        ((tail stream ++ chunk).length - (startCode.length - 1)) := by
  rw [← take_append _ _ (length_tail_append stream chunk), ← List.append_assoc, append_tail]

/-- Where there is no start code yet, the next one is found from the last two bytes on. -/
theorem cutAtStartCode_append_chunk {stream : Bytes} (h : cutAtStartCode stream = none)
    (chunk : Bytes) :
    cutAtStartCode (stream ++ chunk) = (cutAtStartCode (tail stream ++ chunk)).map fun cut =>
      (stream.take (stream.length - (startCode.length - 1)) ++ cut.1, cut.2) := by
  rw [← cutFrom_append chunk h le_rfl, cutFrom, List.drop_append_of_le_length (Nat.sub_le _ _),
    List.take_append_of_le_length (Nat.sub_le _ _)]
  rfl

/-- Before the first start code a chunk is searched together with the last two bytes before it. -/
theorem after_receive_seeking {framer : Framer} {stream : Bytes} (chunk : Bytes)
    (hcut : cutAtStartCode stream = none) (hphase : framer.phase = .seeking)
    (hpending : framer.pending = tail stream) (hsearched : framer.Searched)
    (hdiscarded : framer.discarded = 0 ↔ ∀ byte ∈ passedOver stream, byte = 0) :
    After (stream ++ chunk) (framer.receive chunk).2 ∧
      (framer.receive chunk).1.map NalUnit.bytes = trimmed (closedStretches (stream ++ chunk)) := by
  have hpassed : passedOver stream = stream.take (stream.length - (startCode.length - 1)) := by
    simp [passedOver, hcut]
  rw [hpassed] at hdiscarded
  have hwhole := cutAtStartCode_append_chunk hcut chunk
  cases hbuffer : cutAtStartCode (tail stream ++ chunk) with
  | none =>
    rw [hbuffer, Option.map_none] at hwhole
    rw [receive_seeking_none hphase hsearched (by rw [hpending, hbuffer]), hpending]
    refine ⟨.seeking hwhole hphase (tail_tail_append stream chunk) rfl ?_, ?_⟩
    · simp only [passedOver, hwhole]
      rw [take_tail_append stream chunk]
      exact discard_eq_zero_iff framer _ _ hdiscarded
    · rw [closedStretches_of_none hwhole]
      rfl
  | some cut =>
    obtain ⟨before, after⟩ := cut
    rw [hbuffer, Option.map_some] at hwhole
    rw [receive_seeking_some hphase hsearched (by rw [hpending, hbuffer])]
    refine ⟨after_enter _ after hwhole (lastStretch_of_some hwhole).symm ?_, ?_⟩
    · exact discard_eq_zero_iff framer before _ hdiscarded
    · rw [closedStretches_of_some hwhole]
      exact ((framer.discard before).enter_segments (before.length + 3) after).1

/-- In a unit a chunk is searched together with the last two bytes of the unit so far. -/
theorem after_receive_inUnit {framer : Framer} {stream : Bytes} (chunk : Bytes)
    (hcut : (cutAtStartCode stream).isSome) (hphase : framer.phase = .inUnit)
    (hpending : framer.pending = lastStretch stream) (hsearched : framer.Searched)
    (hdiscarded : framer.discarded = 0 ↔ ∀ byte ∈ passedOver stream, byte = 0) :
    After (stream ++ chunk) (framer.receive chunk).2 ∧
      trimmed (closedStretches (stream ++ chunk)) =
        trimmed (closedStretches stream) ++ (framer.receive chunk).1.map NalUnit.bytes := by
  -- no start code begins in what the search leaves out, so all of the unit counts as searched
  have hclosed := closedStretches_append hcut chunk
  rw [← hpending] at hclosed
  obtain ⟨⟨before, after⟩, hcut⟩ := Option.isSome_iff_exists.mp hcut
  have hwhole := cutAtStartCode_append chunk hcut
  have hlast : lastStretch (framer.pending ++ chunk) = lastStretch (stream ++ chunk) := by
    rw [hpending, ← lastStretch_append]
  rw [receive_inUnit hphase hsearched]
  obtain ⟨hunits, _⟩ := framer.enter_segments 0 (framer.pending ++ chunk)
  refine ⟨after_enter 0 _ hwhole hlast ?_, ?_⟩
  · simpa [passedOver, hcut] using hdiscarded
  · rw [hunits, hclosed, trimmed_append]

/-- One chunk: the units that it completes are those that it closes. -/
theorem after_feed {framer : Framer} {stream : Bytes} (chunk : Bytes) (h : After stream framer) :
    After (stream ++ chunk) (framer.feed chunk).2 ∧
      trimmed (closedStretches (stream ++ chunk)) =
        trimmed (closedStretches stream) ++ (framer.feed chunk).1.map NalUnit.bytes := by
  by_cases hchunk : chunk = []
  · subst hchunk
    simpa [feed_nil] using h
  · rw [feed_eq_receive framer hchunk]
    have hsearched := h.searched
    cases h with
    | seeking cut phase pending _ discarded =>
      obtain ⟨hafter, hunits⟩ := after_receive_seeking chunk cut phase pending hsearched discarded
      refine ⟨hafter, ?_⟩
      rw [hunits, closedStretches_of_none cut]
      rfl
    | inUnit cut phase pending _ discarded =>
      exact after_receive_inUnit chunk cut phase pending hsearched discarded

/-- A run of chunks. -/
theorem after_feedAll {framer : Framer} {stream : Bytes} (chunks : List Bytes)
    (h : After stream framer) :
    After (stream ++ chunks.flatten) (framer.feedAll chunks).2 ∧
      trimmed (closedStretches (stream ++ chunks.flatten)) =
        trimmed (closedStretches stream) ++ (framer.feedAll chunks).1.map NalUnit.bytes := by
  induction chunks generalizing framer stream with
  | nil => simpa [feedAll] using h
  | cons chunk chunks ih =>
    obtain ⟨hafter, hunits⟩ := after_feed chunk h
    obtain ⟨hrun, hlater⟩ := ih hafter
    rw [List.flatten_cons, ← List.append_assoc]
    refine ⟨hrun, ?_⟩
    rw [hlater, hunits, feedAll, List.map_append, List.append_assoc]

/-! ## The end of a stream -/

/-- What stands before the first start code; all of a stream that has none. -/
def lead (stream : Bytes) : Bytes :=
  match cutAtStartCode stream with
  | none => stream
  | some (before, _) => before

/-- The end of the stream gives the last stretch, and something has been passed over just if not all
that stands before the first start code is zero. -/
theorem finish_after {framer : Framer} {stream : Bytes} (h : After stream framer) :
    trimmed (stretches stream).tail =
        trimmed (closedStretches stream) ++ framer.finish.1.map NalUnit.bytes ∧
      (framer.finish.2.discarded = 0 ↔ ∀ byte ∈ lead stream, byte = 0) := by
  rw [finish_eq]
  cases h with
  | seeking cut phase pending _ discarded =>
    have hopen : framer.openUnit? = none := by simp [openUnit?, phase]
    have hlead : lead stream = passedOver stream ++ tail stream := by
      simp [lead, passedOver, cut, append_tail]
    refine ⟨?_, ?_⟩
    · rw [closedStretches_of_none cut, stretches_of_none cut, hopen]
      rfl
    · rw [if_pos phase, hlead, pending]
      exact discard_eq_zero_iff framer (tail stream) _ discarded
  | inUnit cut phase pending _ discarded =>
    obtain ⟨⟨before, after⟩, hcut⟩ := Option.isSome_iff_exists.mp cut
    refine ⟨?_, ?_⟩
    · have hlast : trimmed [lastStretch stream] =
          framer.openUnit?.toList.map NalUnit.bytes := by
        by_cases hzeros : trimZeros framer.pending = []
        · simp [openUnit?, phase, ← pending, hzeros, trimmed]
        · simp [openUnit?, phase, ← pending, hzeros, trimmed]
      rw [tail_stretches_of_isSome cut, trimmed_append, hlast]
    · have hseeking : framer.phase ≠ .seeking := by simp [phase]
      rw [if_neg hseeking]
      simpa [lead, passedOver, hcut, reset] using discarded

/-- A new framer gives the closed units of what it has received. -/
theorem feedAll_eq (chunks : List Bytes) :
    After chunks.flatten (feedAll {} chunks).2 ∧
      (feedAll {} chunks).1.map NalUnit.bytes = closedUnitBytes chunks.flatten := by
  obtain ⟨hafter, hunits⟩ := after_feedAll chunks after_nil
  have hnil : cutAtStartCode ([] : Bytes) = none := rfl
  rw [List.nil_append] at hafter hunits
  refine ⟨hafter, ?_⟩
  rw [closedUnitBytes, ← dropLast_tail_stretches, ← closedStretches, hunits,
    closedStretches_of_none hnil]
  rfl

/-- And at the end of the stream all of them. -/
theorem map_bytes_frame (chunks : List Bytes) :
    (frame {} chunks).1.map NalUnit.bytes = unitBytes chunks.flatten := by
  obtain ⟨hafter, hclosed⟩ := feedAll_eq chunks
  rw [frame_eq, List.map_append, hclosed, unitBytes, ← tail_stretches, (finish_after hafter).1,
    closedUnitBytes, ← dropLast_tail_stretches]
  rfl

theorem discarded_frame_eq_zero_iff (chunks : List Bytes) :
    (frame {} chunks).2.discarded = 0 ↔ ∀ byte ∈ lead chunks.flatten, byte = 0 := by
  rw [frame_eq]
  exact (finish_after (feedAll_eq chunks).1).2

/-! ## The next stream -/

/-- The framer with its counts carried on from elsewhere. -/
def addCounts (framer : Framer) (discarded ignored : Nat) : Framer :=
  { framer with discarded := discarded + framer.discarded, ignored := ignored + framer.ignored }

@[simp] theorem addCounts_phase (framer : Framer) (discarded ignored : Nat) :
    (framer.addCounts discarded ignored).phase = framer.phase := rfl

@[simp] theorem addCounts_pending (framer : Framer) (discarded ignored : Nat) :
    (framer.addCounts discarded ignored).pending = framer.pending := rfl

theorem resume_addCounts (framer : Framer) (discarded ignored : Nat) :
    (framer.addCounts discarded ignored).resume = framer.resume := rfl

theorem discard_addCounts (framer : Framer) (discarded ignored : Nat) (bytes : Bytes) :
    (framer.addCounts discarded ignored).discard bytes =
      (framer.discard bytes).addCounts discarded ignored := by
  simp [discard, addCounts, Nat.add_assoc]

/-- Framing does not depend on the counts. -/
theorem receive_addCounts (framer : Framer) (discarded ignored : Nat) (chunk : Bytes) :
    (framer.addCounts discarded ignored).receive chunk =
      ((framer.receive chunk).1, (framer.receive chunk).2.addCounts discarded ignored) := by
  simp only [receive, addCounts_phase, addCounts_pending, resume_addCounts, discard_addCounts]
  cases framer.phase with
  | inUnit => rfl
  | seeking =>
    cases cutFrom framer.resume (framer.pending ++ chunk) with
    | none => rfl
    | some cut => rfl
  | ignoring =>
    cases cutFrom framer.resume (framer.pending ++ chunk) with
    | none => rfl
    | some cut => rfl

theorem feed_addCounts (framer : Framer) (discarded ignored : Nat) (chunk : Bytes) :
    (framer.addCounts discarded ignored).feed chunk =
      ((framer.feed chunk).1, (framer.feed chunk).2.addCounts discarded ignored) := by
  by_cases hchunk : chunk = []
  · subst hchunk
    rfl
  · rw [feed_eq_receive _ hchunk, feed_eq_receive _ hchunk, receive_addCounts]

theorem feedAll_addCounts (framer : Framer) (discarded ignored : Nat) (chunks : List Bytes) :
    (framer.addCounts discarded ignored).feedAll chunks =
      ((framer.feedAll chunks).1, (framer.feedAll chunks).2.addCounts discarded ignored) := by
  induction chunks generalizing framer with
  | nil => rfl
  | cons chunk chunks ih => simp only [feedAll, feed_addCounts, ih]

theorem finish_addCounts (framer : Framer) (discarded ignored : Nat) :
    (framer.addCounts discarded ignored).finish =
      (framer.finish.1, framer.finish.2.addCounts discarded ignored) := by
  rw [finish_eq, finish_eq, addCounts_phase, addCounts_pending, discard_addCounts]
  by_cases h : framer.phase = .seeking
  · rw [if_pos h, if_pos h]
    rfl
  · rw [if_neg h, if_neg h]
    rfl

/-- A framer that has taken the end of a stream is a new one but for its counts. -/
theorem finish_eq_addCounts (framer : Framer) :
    framer.finish.2 =
      addCounts {} framer.finish.2.discarded framer.finish.2.ignored := by
  rw [finish_eq]
  rfl

end Framer

/-! ## A whole stream at once -/

/-- The units of a whole stream, framed at once. -/
def unitsAtOnce (stream : Bytes) : List NalUnit :=
  (cutAtStartCode stream).elim [] fun cut => unitsOf (segments (cut.1.length + 3) cut.2)

theorem map_bytes_unitsAtOnce (stream : Bytes) :
    (unitsAtOnce stream).map NalUnit.bytes = unitBytes stream := by
  unfold unitsAtOnce unitBytes
  rw [← tail_stretches]
  cases hcut : cutAtStartCode stream with
  | none =>
    rw [stretches_of_none hcut]
    rfl
  | some cut =>
    rw [stretches_of_some hcut, List.tail_cons]
    show (unitsOf (segments (cut.1.length + 3) cut.2)).map NalUnit.bytes = _
    rw [map_bytes_unitsOf, map_bytes_segments]

theorem splitAnnexB_eq_elim (stream : Bytes) :
    splitAnnexB stream = ((Framer.lead stream).findIdx? (· != 0)).elim (.ok (unitsAtOnce stream))
      fun offset => .error (.framing offset .dataBeforeStartCode) := by
  unfold splitAnnexB Framer.lead unitsAtOnce
  cases cutAtStartCode stream with
  | none =>
    dsimp only
    cases stream.findIdx? (· != 0) with
    | none => rfl
    | some offset => rfl
  | some cut =>
    dsimp only
    cases cut.1.findIdx? (· != 0) with
    | none => rfl
    | some offset => rfl

/-- Framing a whole stream at once fails just where something other than zeros stands before the
first start code. -/
theorem splitAnnexB_eq (stream : Bytes) :
    match splitAnnexB stream with
    | .ok units =>
      (∀ byte ∈ Framer.lead stream, byte = 0) ∧ units.map NalUnit.bytes = unitBytes stream
    | .error error =>
      (¬∀ byte ∈ Framer.lead stream, byte = 0) ∧ error.errorClass = .framing := by
  have hzeros : (Framer.lead stream).findIdx? (· != 0) = none ↔
      ∀ byte ∈ Framer.lead stream, byte = 0 := by
    simp [List.findIdx?_eq_none_iff]
  rw [splitAnnexB_eq_elim, ← hzeros]
  cases (Framer.lead stream).findIdx? (· != 0) with
  | none => exact ⟨rfl, map_bytes_unitsAtOnce stream⟩
  | some offset => exact ⟨Option.some_ne_none offset, rfl⟩

/-! ## Every way of cutting -/

/-- However a stream is cut into chunks, a framer that keeps everything gives its units, read off
the places of the start codes, which do not overlap: after each chunk those that a start code has
closed, and at the end all of them. Between chunks no start code can begin in the bytes that will
not be searched again, whatever comes. Framing the whole stream at once gives the same, or fails
just where the framer discarded something; and after the end the next stream is framed as by a new
framer. -/
theorem framing_independent_of_chunks (chunks : List Bytes) :
    let stream := chunks.flatten
    let ended := (Framer.frame {} chunks).2
    (startCodePlaces stream).Pairwise
        (fun earlier later => earlier + startCode.length ≤ later) ∧
      (∀ count, (Framer.feedAll {} (chunks.take count)).1.map NalUnit.bytes =
        closedUnitBytes (chunks.take count).flatten) ∧
      (∀ count later, let held := (Framer.feedAll {} (chunks.take count)).2
        ∀ place < held.resume, ¬startCode <+: (held.pending ++ later).drop place) ∧
      (Framer.frame {} chunks).1.map NalUnit.bytes = unitBytes stream ∧
      (match splitAnnexB stream with
        | .ok units => ended.discarded = 0 ∧
            units.map NalUnit.bytes = (Framer.frame {} chunks).1.map NalUnit.bytes
        | .error error => 0 < ended.discarded ∧ error.errorClass = .framing) ∧
      ∀ next : List Bytes,
        (∀ count, (ended.feedAll (next.take count)).1 = (Framer.feedAll {} (next.take count)).1) ∧
          (ended.frame next).1 = (Framer.frame {} next).1 ∧
          (ended.frame next).2.discarded =
            ended.discarded + (Framer.frame {} next).2.discarded := by
  intro stream ended
  refine ⟨startCodePlaces_apart stream, ?_, ?_, Framer.map_bytes_frame chunks, ?_, ?_⟩
  · intro count
    exact (Framer.feedAll_eq (chunks.take count)).2
  · intro count later held place hplace
    exact (Framer.feedAll_eq (chunks.take count)).1.searched.not_startCode later hplace
  · have hended : ended.discarded = 0 ↔ ∀ byte ∈ Framer.lead stream, byte = 0 :=
      Framer.discarded_frame_eq_zero_iff chunks
    have hsplit := splitAnnexB_eq stream
    cases hresult : splitAnnexB stream with
    | ok units =>
      rw [hresult] at hsplit
      exact ⟨hended.mpr hsplit.1, hsplit.2.trans (Framer.map_bytes_frame chunks).symm⟩
    | error error =>
      rw [hresult] at hsplit
      exact ⟨Nat.pos_of_ne_zero fun hzero => hsplit.1 (hended.mp hzero), hsplit.2⟩
  · intro next
    have hnew : ended = Framer.addCounts {} ended.discarded ended.ignored := by
      simp only [ended, Framer.frame_eq]
      exact Framer.finish_eq_addCounts _
    refine ⟨?_, ?_, ?_⟩
    · intro count
      rw [hnew, Framer.feedAll_addCounts]
    · rw [hnew, Framer.frame_eq, Framer.frame_eq, Framer.feedAll_addCounts,
        Framer.finish_addCounts]
    · conv => lhs; rw [hnew, Framer.frame_eq, Framer.feedAll_addCounts, Framer.finish_addCounts]
      rw [Framer.frame_eq]
      rfl

end H264.Framing
