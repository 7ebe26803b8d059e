import H264.Proofs.Framing.Judgements

/-!
# The protocol of an interest

What a framer holds and what it has called an interest with go together (`Framer.Standing`): the
calls on units that a start code has closed follow the protocol, those on the unit in progress may
still go on unless the last one had it ignored. A chunk preserves this (`exists_push`), so does a
run (`exists_pushes`), and the end of the stream brings the protocol to its end:
**`calls_follow_protocol`**.
-/

namespace H264.Framing

theorem getLast?_trimZeros {bytes : Bytes} (h : trimZeros bytes ≠ []) :
    ∃ byte, (trimZeros bytes).getLast? = some byte ∧ byte ≠ 0 := by
  refine ⟨(trimZeros bytes).getLast h, List.getLast?_eq_some_getLast h, fun hzero => ?_⟩
  exact List.rdropWhile_last_not (· == 0) bytes h (beq_iff_eq.mpr hzero)

theorem trimmed_cons (stretch : Bytes) (stretches : List Bytes) :
    trimmed (stretch :: stretches) =
      if trimZeros stretch = [] then trimmed stretches
      else trimZeros stretch :: trimmed stretches := by
  unfold trimmed
  rw [List.map_cons]
  by_cases hzeros : trimZeros stretch = []
  · rw [if_pos hzeros, List.filter_cons_of_neg (by simpa using hzeros)]
  · rw [if_neg hzeros, List.filter_cons_of_pos (by simpa using hzeros)]

/-- A unit that has been shown is not empty. -/
theorem Partials.ne_nil {unit : Bytes} {calls : List Judgement} (h : Partials unit calls)
    {call : Judgement} (hmem : call ∈ calls) : unit ≠ [] := by
  obtain ⟨hbegins, byte, hlast, -⟩ := h.shown call hmem
  rintro rfl
  rw [List.prefix_nil.mp hbegins] at hlast
  cases hlast

section Follows

variable {before bytes : Bytes} {others kept : List Bytes} {opened earlier calls : List Judgement}

/-- The call on a unit that is complete comes after those while it was open. -/
theorem follows_judged (hopened : Partials (trimZeros before) opened)
    (hkept : ∀ call ∈ opened, call.verdict = .keep)
    (h : Concluded (trimmed (before :: others)) calls kept) :
    Follows (trimmed (before :: others)) (opened ++ calls) kept := by
  rw [trimmed_cons] at h ⊢
  by_cases hzeros : trimZeros before = []
  · -- a unit without anything but zeros has not been shown
    have hnone : opened = [] := by
      refine List.eq_nil_iff_forall_not_mem.mpr fun call hmem => ?_
      exact hopened.ne_nil hmem hzeros
    rw [if_pos hzeros] at h ⊢
    rw [hnone]
    exact h.follows
  · rw [if_neg hzeros] at h ⊢
    exact h.follows_of_partials hopened hkept

/-- On a unit that has been ignored there is none. -/
theorem follows_passed
    (hopened : Partials (trimZeros before)
      (earlier ++ [{ bytes, complete := false, verdict := .ignore }]))
    (hkept : ∀ call ∈ earlier, call.verdict = .keep) (h : Concluded (trimmed others) calls kept) :
    Follows (trimmed (before :: others))
      (earlier ++ [{ bytes, complete := false, verdict := .ignore }] ++ calls) kept := by
  have hlast : Judgement.mk bytes false .ignore ∈
      earlier ++ [{ bytes, complete := false, verdict := .ignore }] :=
    List.mem_append_right _ (List.mem_singleton.mpr rfl)
  rw [trimmed_cons, if_neg (hopened.ne_nil hlast)]
  exact .dropped (.cutShort hopened hkept) ⟨_, hlast, rfl⟩ h.follows

end Follows

namespace Framer

variable {σ : Type} {interest : Interest σ} {stream later chunk : Bytes}
  {framer : Framer} {opened calls : List Judgement} {kept : List Bytes}

/-! ## Calls and the state of a framer -/

/-- The state of a framer after a stream, and the calls on the unit in progress. -/
inductive Standing (stream : Bytes) (framer : Framer) : List Judgement → Prop
  | seeking (cut : cutAtStartCode stream = none) (phase : framer.phase = .seeking)
      (pending : framer.pending = tail stream) (searched : framer.Searched) :
      Standing stream framer []
  | judging {calls : List Judgement} (cut : (cutAtStartCode stream).isSome)
      (phase : framer.phase = .inUnit) (pending : framer.pending = lastStretch stream)
      (searched : framer.Searched)
      (partials : Partials (trimZeros (lastStretch stream)) calls)
      (kept : ∀ call ∈ calls, call.verdict = .keep) : Standing stream framer calls
  | passing {earlier : List Judgement} {bytes : Bytes} (cut : (cutAtStartCode stream).isSome)
      (phase : framer.phase = .ignoring) (pending : framer.pending = tail (lastStretch stream))
      (searched : framer.Searched)
      (partials : Partials (trimZeros (lastStretch stream))
        (earlier ++ [{ bytes, complete := false, verdict := .ignore }]))
      (kept : ∀ call ∈ earlier, call.verdict = .keep) :
      Standing stream framer (earlier ++ [{ bytes, complete := false, verdict := .ignore }])

theorem standing_nil : Standing [] {} [] :=
  .seeking rfl rfl rfl after_nil.searched

theorem Standing.searched (h : Standing stream framer opened) : framer.Searched := by
  cases h with
  | seeking _ _ _ searched => exact searched
  | judging _ _ _ searched => exact searched
  | passing _ _ _ searched => exact searched

theorem Standing.ignoring (h : Standing stream framer opened) (count : Nat) :
    Standing stream (framer.ignoring count) opened := by
  have hsearched : (framer.ignoring count).Searched := ⟨h.searched.cut, h.searched.scanned⟩
  cases h with
  | seeking cut phase pending => exact .seeking cut phase pending hsearched
  | judging cut phase pending _ partials kept =>
    exact .judging cut phase pending hsearched partials kept
  | passing cut phase pending _ partials kept =>
    exact .passing cut phase pending hsearched partials kept

/-- What later bytes and the calls made meanwhile add: some units are closed, and the calls up to
those on the unit in progress follow the protocol on them. -/
def Advances (stream later : Bytes) (opened calls opened' : List Judgement) (kept : List Bytes) :
    Prop :=
  ∃ closed group, trimmed (closedStretches (stream ++ later)) =
      trimmed (closedStretches stream) ++ closed ∧
    opened ++ calls = group ++ opened' ∧ Follows closed group kept

namespace Advances

variable {opened' opened'' calls' : List Judgement} {kept' : List Bytes}

theorem nothing (stream : Bytes) (opened : List Judgement) :
    Advances stream [] opened [] opened [] := by
  refine ⟨[], [], ?_, List.append_nil opened, .nil⟩
  rw [List.append_nil, List.append_nil]

theorem trans (h : Advances stream chunk opened calls opened' kept)
    (hlater : Advances (stream ++ chunk) later opened' calls' opened'' kept') :
    Advances stream (chunk ++ later) opened (calls ++ calls') opened'' (kept ++ kept') := by
  obtain ⟨closed, group, hclosed, hcalls, hfollows⟩ := h
  obtain ⟨closed', group', hclosed', hcalls', hfollows'⟩ := hlater
  refine ⟨closed ++ closed', group ++ group', ?_, ?_, hfollows.append hfollows'⟩
  · rw [← List.append_assoc, hclosed', hclosed, List.append_assoc]
  · rw [← List.append_assoc, hcalls, List.append_assoc, hcalls', List.append_assoc]

/-- More calls on the unit in progress. -/
theorem review (h : Advances stream chunk opened calls opened' kept) (more : List Judgement) :
    Advances stream chunk opened (calls ++ more) (opened' ++ more) kept := by
  obtain ⟨closed, group, hclosed, hcalls, hfollows⟩ := h
  refine ⟨closed, group, hclosed, ?_, hfollows⟩
  rw [← List.append_assoc, hcalls, List.append_assoc]

end Advances

/-! ## Receiving a chunk -/

/-- What units that a chunk completes are, by the calls before and on them. -/
def Closes (stream chunk : Bytes) (opened : List Judgement) (units : List Bytes)
    (opened' : List Judgement) : Prop :=
  ∀ calls kept, Concluded units calls kept → Advances stream chunk opened calls opened' kept

/-- Without a start code nothing is closed. -/
theorem closes_nothing
    (h : trimmed (closedStretches (stream ++ chunk)) = trimmed (closedStretches stream)) :
    Closes stream chunk opened [] opened := by
  intro calls kept hconcluded
  obtain ⟨rfl, rfl⟩ := hconcluded.eq_nil
  refine ⟨[], [], ?_, List.append_nil opened, .nil⟩
  rw [h, List.append_nil]

/-- A start code closes units, and none of the calls is on the next one. -/
theorem closes_of_follows {units closed : List Bytes}
    (h : closedStretches (stream ++ chunk) = closedStretches stream ++ closed)
    (hfollows : ∀ {calls kept}, Concluded units calls kept →
      Follows (trimmed closed) (opened ++ calls) kept) : Closes stream chunk opened units [] := by
  intro calls kept hconcluded
  refine ⟨trimmed closed, opened ++ calls, ?_, (List.append_nil _).symm, hfollows hconcluded⟩
  rw [h, trimmed_append]

theorem standing_receive_seeking (chunk : Bytes) (hcut : cutAtStartCode stream = none)
    (hphase : framer.phase = .seeking) (hpending : framer.pending = tail stream)
    (hsearched : framer.Searched) :
    Standing (stream ++ chunk) (framer.receive chunk).2 [] ∧
      Closes stream chunk [] ((framer.receive chunk).1.map NalUnit.bytes) [] := by
  have hwhole := cutAtStartCode_append_chunk hcut chunk
  cases hbuffer : cutAtStartCode (tail stream ++ chunk) with
  | none =>
    rw [hbuffer, Option.map_none] at hwhole
    rw [receive_seeking_none hphase hsearched (by rw [hpending, hbuffer]), hpending]
    refine ⟨.seeking hwhole hphase (tail_tail_append stream chunk) (searched_keepTail _ _),
      closes_nothing ?_⟩
    rw [closedStretches_of_none hwhole, closedStretches_of_none hcut]
  | some cut =>
    obtain ⟨before, after⟩ := cut
    rw [hbuffer, Option.map_some] at hwhole
    obtain ⟨hunits, hlast⟩ := (framer.discard before).enter_segments (before.length + 3) after
    have hstays := (framer.discard before).searched_enter (before.length + 3) after
    rw [hlast] at hstays
    rw [receive_seeking_some hphase hsearched (by rw [hpending, hbuffer]), hlast, hunits]
    refine ⟨.judging (Option.isSome_of_eq_some hwhole) rfl (lastStretch_of_some hwhole).symm hstays
      .nil (fun _ hmem => nomatch hmem), ?_⟩
    refine closes_of_follows ?_ Concluded.follows
    rw [closedStretches_of_none hcut, closedStretches_of_some hwhole]
    rfl

theorem isSome_cutAtStartCode_append (h : (cutAtStartCode stream).isSome) (later : Bytes) :
    (cutAtStartCode (stream ++ later)).isSome := by
  obtain ⟨⟨before, after⟩, hcut⟩ := Option.isSome_iff_exists.mp h
  exact Option.isSome_of_eq_some (cutAtStartCode_append later hcut)

theorem standing_receive_judging (chunk : Bytes) (hcut : (cutAtStartCode stream).isSome)
    (hphase : framer.phase = .inUnit) (hpending : framer.pending = lastStretch stream)
    (hsearched : framer.Searched)
    (hopened : Partials (trimZeros (lastStretch stream)) opened)
    (hkept : ∀ call ∈ opened, call.verdict = .keep) :
    ∃ opened', Standing (stream ++ chunk) (framer.receive chunk).2 opened' ∧
      Closes stream chunk opened ((framer.receive chunk).1.map NalUnit.bytes) opened' := by
  have hsome := isSome_cutAtStartCode_append hcut chunk
  have hclosed := closedStretches_append hcut chunk
  have hlast := lastStretch_append stream chunk
  have hopen := cutAtStartCode_lastStretch stream
  have hstays := searched_receive hsearched chunk
  obtain ⟨hunits, hentered⟩ := framer.enter_segments 0 (framer.pending ++ chunk)
  rw [receive_inUnit hphase hsearched, hentered, hpending] at hstays
  rw [receive_inUnit hphase hsearched, hunits, hentered, hpending]
  cases hbuffer : cutAtStartCode (lastStretch stream ++ chunk) with
  | none =>
    rw [stretches_of_none hbuffer] at hclosed ⊢
    rw [lastStretch_of_none hbuffer] at hlast hstays ⊢
    refine ⟨opened, .judging hsome rfl hlast.symm hstays (hopened.mono ?_) hkept, closes_nothing ?_⟩
    · rw [hlast]
      exact trimZeros_isPrefix_append _ chunk
    · rw [hclosed]
      exact congrArg trimmed (List.append_nil _)
  | some cut =>
    obtain ⟨before, after⟩ := cut
    rw [stretches_of_some hbuffer, List.dropLast_cons_of_ne_nil (stretches_ne_nil after)]
      at hclosed ⊢
    refine ⟨[], .judging hsome rfl hlast.symm hstays .nil (fun _ hmem => nomatch hmem), ?_⟩
    exact closes_of_follows hclosed
      (follows_judged (hopened.mono (trimZeros_isPrefix_of_cut hopen hbuffer)) hkept)

theorem standing_receive_passing {earlier : List Judgement} {bytes : Bytes} (chunk : Bytes)
    (hcut : (cutAtStartCode stream).isSome) (hphase : framer.phase = .ignoring)
    (hpending : framer.pending = tail (lastStretch stream)) (hsearched : framer.Searched)
    (hopened : Partials (trimZeros (lastStretch stream))
      (earlier ++ [{ bytes, complete := false, verdict := .ignore }]))
    (hkept : ∀ call ∈ earlier, call.verdict = .keep) :
    ∃ opened', Standing (stream ++ chunk) (framer.receive chunk).2 opened' ∧
      Closes stream chunk (earlier ++ [{ bytes, complete := false, verdict := .ignore }])
        ((framer.receive chunk).1.map NalUnit.bytes) opened' := by
  have hsome := isSome_cutAtStartCode_append hcut chunk
  have hclosed := closedStretches_append hcut chunk
  have hlast := lastStretch_append stream chunk
  have hopen := cutAtStartCode_lastStretch stream
  have hwhole := cutAtStartCode_append_chunk hopen chunk
  cases hbuffer : cutAtStartCode (tail (lastStretch stream) ++ chunk) with
  | none =>
    rw [hbuffer, Option.map_none] at hwhole
    rw [stretches_of_none hwhole] at hclosed
    rw [lastStretch_of_none hwhole] at hlast
    rw [receive_ignoring_none hphase hsearched (by rw [hpending, hbuffer]), hpending]
    refine ⟨_, .passing hsome hphase ?_ (searched_keepTail _ _) (hopened.mono ?_) hkept,
      closes_nothing ?_⟩
    · rw [hlast]
      exact tail_tail_append (lastStretch stream) chunk
    · rw [hlast]
      exact trimZeros_isPrefix_append _ chunk
    · rw [hclosed]
      exact congrArg trimmed (List.append_nil _)
  | some cut =>
    obtain ⟨before, after⟩ := cut
    rw [hbuffer, Option.map_some] at hwhole
    obtain ⟨hunits, hentered⟩ := framer.enter_segments (before.length + 3) after
    rw [stretches_of_some hwhole, List.dropLast_cons_of_ne_nil (stretches_ne_nil after)]
      at hclosed
    have hstays := framer.searched_enter (before.length + 3) after
    rw [hentered] at hstays
    rw [receive_ignoring_some hphase hsearched (by rw [hpending, hbuffer]), hunits, hentered]
    refine ⟨[], .judging hsome rfl ?_ hstays .nil (fun _ hmem => nomatch hmem), ?_⟩
    · rw [hlast, lastStretch_of_some hwhole]
    · exact closes_of_follows hclosed
        (follows_passed (hopened.mono (trimZeros_isPrefix_of_cut hopen hwhole)) hkept)

/-- Whatever a framer is at, the units that a chunk completes end the calls on the unit in
progress. -/
theorem standing_receive (h : Standing stream framer opened) (chunk : Bytes) :
    ∃ opened', Standing (stream ++ chunk) (framer.receive chunk).2 opened' ∧
      Closes stream chunk opened ((framer.receive chunk).1.map NalUnit.bytes) opened' := by
  cases h with
  | seeking cut phase pending searched =>
    exact ⟨[], standing_receive_seeking chunk cut phase pending searched⟩
  | judging cut phase pending searched partials kept =>
    exact standing_receive_judging chunk cut phase pending searched partials kept
  | passing cut phase pending searched partials kept =>
    exact standing_receive_passing chunk cut phase pending searched partials kept

/-! ## Showing the unit in progress -/

/-- Of a unit that no call has had ignored, and that is more than zeros, all is shown that has been
received of it. -/
def ShowsOpen (stream : Bytes) (earlier reviewed : List Judgement) : Prop :=
  (cutAtStartCode stream).isSome → trimZeros (lastStretch stream) ≠ [] →
    (∀ call ∈ earlier, call.verdict = .keep) →
    ∃ verdict, reviewed =
      [{ bytes := trimZeros (lastStretch stream), complete := false, verdict }]

theorem openUnit?_of_judging (hphase : framer.phase = .inUnit)
    (hpending : framer.pending = lastStretch stream)
    (hfilled : trimZeros (lastStretch stream) ≠ []) :
    framer.openUnit? = some { bytes := trimZeros (lastStretch stream) } := by
  unfold openUnit?
  rw [hpending]
  exact if_pos ⟨hphase, hfilled⟩

theorem openUnit?_eq_none (h : framer.phase = .inUnit → trimZeros framer.pending = []) :
    framer.openUnit? = none :=
  if_neg fun hopen => hopen.2 (h hopen.1)

theorem exists_review (interest : Interest σ) (h : Standing stream framer opened) (memory : σ) :
    ∃ framer' memory' reviewed,
      Makes interest (fun other => reviewOpen other) framer memory () framer' memory' reviewed ∧
      Standing stream framer' (opened ++ reviewed) ∧ ShowsOpen stream opened reviewed := by
  cases h with
  | seeking cut phase pending searched =>
    have hopen : framer.openUnit? = none := openUnit?_eq_none fun h => by rw [phase] at h; cases h
    refine ⟨framer, memory, [], makes_reviewOpen_of_none interest memory hopen,
      .seeking cut phase pending searched, ?_⟩
    intro hsome
    rw [cut] at hsome
    cases hsome
  | passing cut phase pending searched partials kept =>
    have hopen : framer.openUnit? = none := openUnit?_eq_none fun h => by rw [phase] at h; cases h
    refine ⟨framer, memory, [], makes_reviewOpen_of_none interest memory hopen, ?_, ?_⟩
    · rw [List.append_nil]
      exact .passing cut phase pending searched partials kept
    · intro _ _ hkeep
      have hlast := hkeep _ (List.mem_append_right _ (List.mem_singleton.mpr rfl))
      cases hlast
  | judging cut phase pending searched partials kept =>
    by_cases hzeros : trimZeros (lastStretch stream) = []
    · have hopen : framer.openUnit? = none := openUnit?_eq_none fun _ => by rw [pending, hzeros]
      refine ⟨framer, memory, [], makes_reviewOpen_of_none interest memory hopen, ?_, ?_⟩
      · rw [List.append_nil]
        exact .judging cut phase pending searched partials kept
      · intro _ hfilled
        exact absurd hzeros hfilled
    · have hopen := openUnit?_of_judging phase pending hzeros
      rcases hjudged : (interest.judge { bytes := trimZeros (lastStretch stream) } false).run memory
        with ⟨verdict, memory'⟩
      have hmore := partials.concat (getLast?_trimZeros hzeros) verdict
      cases verdict with
      | keep =>
        refine ⟨framer, memory', _, makes_reviewOpen_of_keep hopen hjudged,
          .judging cut phase pending searched hmore ?_, fun _ _ _ => ⟨.keep, rfl⟩⟩
        rw [List.forall_mem_append, List.forall_mem_singleton]
        exact ⟨kept, rfl⟩
      | ignore =>
        refine ⟨(framer.ignoring 1).passOver, memory', _, makes_reviewOpen_of_ignore hopen hjudged,
          .passing cut rfl ?_ (searched_passOver _) hmore kept, fun _ _ _ => ⟨.ignore, rfl⟩⟩
        exact congrArg tail pending

/-! ## Chunks -/

/-- A chunk that is not empty: the calls on units that it completes, and then the unit in progress
is shown. -/
theorem exists_push_of_ne_nil (interest : Interest σ) (h : Standing stream framer opened)
    (hchunk : chunk ≠ []) (memory : σ) :
    ∃ kept framer' memory' concluded earlier reviewed,
      Makes interest (fun other => push other chunk) framer memory kept framer' memory'
        (concluded ++ reviewed) ∧
      Standing (stream ++ chunk) framer' (earlier ++ reviewed) ∧
      Advances stream chunk opened concluded earlier (kept.map NalUnit.bytes) ∧
      (∀ call ∈ concluded, call.complete = true) ∧
      ShowsOpen (stream ++ chunk) earlier reviewed := by
  obtain ⟨earlier, hstanding, hcloses⟩ := standing_receive h chunk
  obtain ⟨kept, ignored, middle, concluded, hselect, hconcluded⟩ :=
    exists_makes_select interest (framer.receive chunk).1 (framer.receive chunk).2 memory
  obtain ⟨framer', memory', reviewed, hreview, hreviewed, hshows⟩ :=
    exists_review interest (hstanding.ignoring ignored) middle
  exact ⟨kept, framer', memory', concluded, earlier, reviewed,
    makes_push hchunk hselect hreview, hreviewed, hcloses _ _ hconcluded, hconcluded.complete,
    hshows⟩

/-- One chunk. -/
theorem exists_push (interest : Interest σ) (h : Standing stream framer opened) (chunk : Bytes)
    (memory : σ) :
    ∃ kept framer' memory' calls opened',
      Makes interest (fun other => push other chunk) framer memory kept framer' memory' calls ∧
      Standing (stream ++ chunk) framer' opened' ∧
      Advances stream chunk opened calls opened' (kept.map NalUnit.bytes) := by
  by_cases hchunk : chunk = []
  · subst hchunk
    refine ⟨[], framer, memory, [], opened, makes_push_nil interest framer memory, ?_,
      .nothing stream opened⟩
    rw [List.append_nil]
    exact h
  · obtain ⟨kept, framer', memory', concluded, earlier, reviewed, hpush, hstanding, hadvances, -⟩ :=
      exists_push_of_ne_nil interest h hchunk memory
    exact ⟨kept, framer', memory', concluded ++ reviewed, earlier ++ reviewed, hpush, hstanding,
      hadvances.review reviewed⟩

/-- A run of chunks. -/
theorem exists_pushes (interest : Interest σ) (h : Standing stream framer opened)
    (chunks : List Bytes) (memory : σ) :
    ∃ kept framer' memory' calls opened',
      Makes interest (fun other => chunks.mapM (push other)) framer memory kept framer' memory'
        calls ∧
      Standing (stream ++ chunks.flatten) framer' opened' ∧
      Advances stream chunks.flatten opened calls opened' (kept.flatten.map NalUnit.bytes) := by
  induction chunks generalizing stream framer opened memory with
  | nil =>
    refine ⟨[], framer, memory, [], opened, makes_pushes_nil interest framer memory, ?_,
      .nothing stream opened⟩
    rw [List.flatten_nil, List.append_nil]
    exact h
  | cons chunk chunks ih =>
    obtain ⟨first, middle, memory', calls, between, hpush, hmiddle, hfirst⟩ :=
      exists_push interest h chunk memory
    obtain ⟨others, framer', memory'', calls', opened', hpushes, hlast, hothers⟩ :=
      ih hmiddle memory'
    refine ⟨first :: others, framer', memory'', calls ++ calls', opened',
      makes_pushes_cons hpush hpushes, ?_, ?_⟩
    · rw [List.flatten_cons, ← List.append_assoc]
      exact hlast
    · rw [List.flatten_cons, List.flatten_cons, List.map_append]
      exact hfirst.trans hothers

/-! ## The end of a stream -/

/-- At the end the protocol on the unit in progress comes to its end. -/
theorem exists_flush (interest : Interest σ) (h : Standing stream framer opened) (memory : σ) :
    ∃ last framer' memory' calls closed,
      Makes interest (fun other => flush other) framer memory last framer' memory' calls ∧
      trimmed (stretches stream).tail = trimmed (closedStretches stream) ++ closed ∧
      Follows closed (opened ++ calls) (last.map NalUnit.bytes) := by
  obtain ⟨last, ignored, memory', calls, hselect, hconcluded⟩ :=
    exists_makes_select interest framer.openUnit?.toList framer memory
  have hflush := makes_flush hselect
  cases h with
  | seeking cut phase pending =>
    have hopen : framer.openUnit? = none := openUnit?_eq_none fun h => by rw [phase] at h; cases h
    rw [hopen] at hconcluded
    refine ⟨last, _, memory', calls, [], hflush, ?_, hconcluded.follows⟩
    rw [closedStretches_of_none cut, stretches_of_none cut]
    rfl
  | judging cut phase pending searched partials kept =>
    have hunits : framer.openUnit?.toList.map NalUnit.bytes = trimmed [lastStretch stream] := by
      rw [trimmed_cons]
      by_cases hzeros : trimZeros (lastStretch stream) = []
      · rw [if_pos hzeros, openUnit?_eq_none fun _ => by rw [pending, hzeros]]
        rfl
      · rw [if_neg hzeros, openUnit?_of_judging phase pending hzeros]
        rfl
    rw [hunits] at hconcluded
    refine ⟨last, _, memory', calls, trimmed [lastStretch stream], hflush, ?_,
      follows_judged partials kept hconcluded⟩
    rw [tail_stretches_of_isSome cut, trimmed_append]
  | passing cut phase pending searched partials kept =>
    have hopen : framer.openUnit? = none := openUnit?_eq_none fun h => by rw [phase] at h; cases h
    rw [hopen] at hconcluded
    refine ⟨last, _, memory', calls, trimmed [lastStretch stream], hflush, ?_,
      follows_passed partials kept hconcluded⟩
    rw [tail_stretches_of_isSome cut, trimmed_append]

/-! ## Whole streams -/

theorem closedUnitBytes_eq (stream : Bytes) :
    closedUnitBytes stream = trimmed (closedStretches stream) := by
  rw [closedUnitBytes, ← dropLast_tail_stretches, closedStretches]

/-- From the beginning of a stream the calls follow the protocol on the units that are closed. -/
theorem Advances.of_nil {opened' : List Judgement}
    (h : Advances [] stream [] calls opened' kept) :
    ∃ group, calls = group ++ opened' ∧ Follows (closedUnitBytes stream) group kept := by
  obtain ⟨closed, group, hclosed, hcalls, hfollows⟩ := h
  have hnone : closedStretches [] = [] := closedStretches_of_none rfl
  rw [List.nil_append, hnone] at hclosed
  refine ⟨group, hcalls, ?_⟩
  rw [closedUnitBytes_eq, hclosed]
  exact hfollows

/-- What stands behind the last start code of a stream. -/
theorem lastStretch_eq {before received : Bytes} (hstream : stream = before ++ startCode ++ received)
    (hreceived : ¬startCode <:+: received) :
    (cutAtStartCode stream).isSome ∧ lastStretch stream = received := by
  have hsearched := not_infix_of_cutAtStartCode (cutAtStartCode_lastStretch before)
  have hcut := cutAtStartCode_append_startCode hsearched received
  rw [hstream, List.append_assoc, lastStretch_append, lastStretch_of_some hcut,
    lastStretch_of_none (cutAtStartCode_eq_none hreceived)]
  refine ⟨?_, rfl⟩
  cases hnone : cutAtStartCode (before ++ (startCode ++ received)) with
  | some cut => rfl
  | none =>
    exact absurd ⟨before, received, List.append_assoc _ _ _⟩ (not_infix_of_cutAtStartCode hnone)

theorem Standing.partials (h : Standing stream framer opened)
    (hcut : (cutAtStartCode stream).isSome) :
    Partials (trimZeros (lastStretch stream)) opened := by
  cases h with
  | seeking cut =>
    rw [cut] at hcut
    cases hcut
  | judging _ _ _ _ partials => exact partials
  | passing _ _ _ _ partials => exact partials

theorem exists_pushAll (interest : Interest σ) (memory : σ) (chunks : List Bytes) :
    ∃ units framer' memory' calls,
      Makes interest (fun other => pushAll other chunks) {} memory units framer' memory' calls ∧
      Follows (unitBytes chunks.flatten) calls (units.map NalUnit.bytes) := by
  obtain ⟨kept, framer, middle, calls, opened, hpushes, hstanding, hadvances⟩ :=
    exists_pushes interest standing_nil chunks memory
  obtain ⟨last, framer', memory', lastCalls, closed, hflush, hclosed, hlast⟩ :=
    exists_flush interest hstanding middle
  obtain ⟨group, rfl, hgroup⟩ := hadvances.of_nil
  refine ⟨kept.flatten ++ last, framer', memory', _, makes_pushAll hpushes hflush, ?_⟩
  rw [unitBytes, ← tail_stretches, ← List.nil_append chunks.flatten, hclosed, List.nil_append,
    ← closedUnitBytes_eq, List.append_assoc, List.map_append]
  exact hgroup.append hlast

end Framer

open Framer in
/-- **The protocol of an interest.** However an interest answers and whatever it remembers, recording
its calls changes nothing, and the calls follow the protocol on the units of the stream: one unit
after the other, each shown while it grows, then, unless a call had it ignored, once as a whole; and
returned just if no call on it had it ignored. After every chunk but an empty one the calls are those
on the units that a start code has closed, then those on the unit in progress; and if this is more
than zeros and no call has had it ignored, the last call of the chunk shows all that has been
received of it, less the zeros at its end. -/
theorem calls_follow_protocol {σ : Type} (interest : Interest σ) (memory : σ)
    (chunks : List Bytes) :
    frameWith interest.recorded (memory, []) {} chunks = frameWith interest memory {} chunks ∧
      Follows (unitBytes chunks.flatten) (callsOf interest memory chunks)
        ((frameWith interest memory {} chunks).1.map NalUnit.bytes) ∧
      ∀ front chunk back, chunks = front ++ chunk :: back → chunk ≠ [] →
        ∃ concluded reviewed closed earlier kept,
          callsOfChunks interest memory (front ++ [chunk]) =
            callsOfChunks interest memory front ++ (concluded ++ reviewed) ∧
          callsOfChunks interest memory (front ++ [chunk]) <+: callsOf interest memory chunks ∧
          (∀ call ∈ concluded, call.complete = true) ∧
          callsOfChunks interest memory front ++ concluded = closed ++ earlier ∧
          Follows (closedUnitBytes (front ++ [chunk]).flatten) closed kept ∧
          ∀ before received, (front ++ [chunk]).flatten = before ++ startCode ++ received →
            ¬startCode <:+: received → Partials (trimZeros received) (earlier ++ reviewed) ∧
              (trimZeros received ≠ [] → (∀ call ∈ earlier, call.verdict = .keep) →
                ∃ verdict, reviewed =
                  [{ bytes := trimZeros received, complete := false, verdict }]) := by
  obtain ⟨units, ended, memory', calls, hmakes, hfollows⟩ := exists_pushAll interest memory chunks
  obtain ⟨hframe, hrecorded⟩ := frameWith_of_makes hmakes
  refine ⟨hrecorded.trans hframe.symm, ?_, ?_⟩
  · rw [callsOf_eq hmakes, hframe]
    exact hfollows
  · rintro front chunk back rfl hchunk
    obtain ⟨kept, framer, middle, before, opened, hfront, hstanding, hadvances⟩ :=
      exists_pushes interest standing_nil front memory
    obtain ⟨first, framer₁, memory₁, concluded, earlier, reviewed, hpush, hpushed, hclosing,
      hcomplete, hshows⟩ := exists_push_of_ne_nil interest hstanding hchunk middle
    obtain ⟨others, framer₂, memory₂, later, opened₂, hback, hlast, -⟩ :=
      exists_pushes interest hpushed back memory₁
    obtain ⟨last, framer₃, memory₃, lastCalls, -, hflush, -⟩ :=
      exists_flush interest hlast memory₂
    -- the calls of the whole stream are those of its parts, one after the other
    have hsoFar := callsOfChunks_eq
      (makes_pushes_append hfront (makes_pushes_cons hpush (makes_pushes_nil interest _ _)))
    have hall := callsOf_eq
      (makes_pushAll (makes_pushes_append hfront (makes_pushes_cons hpush hback)) hflush)
    rw [List.append_nil] at hsoFar
    obtain ⟨closed, hclosed, hprotocol⟩ := (hadvances.trans hclosing).of_nil
    have hstream : (front ++ [chunk]).flatten = [] ++ front.flatten ++ chunk := by
      rw [List.flatten_append, List.flatten_singleton, List.nil_append]
    refine ⟨concluded, reviewed, closed, earlier,
      kept.flatten.map NalUnit.bytes ++ first.map NalUnit.bytes, ?_, ?_, hcomplete, ?_, ?_, ?_⟩
    · rw [hsoFar, callsOfChunks_eq hfront]
    · rw [hsoFar, hall]
      refine ⟨later ++ lastCalls, ?_⟩
      simp only [List.append_assoc]
    · rw [callsOfChunks_eq hfront]
      exact hclosed
    · rw [hstream, List.nil_append]
      exact hprotocol
    · intro lead received hsplit hreceived
      rw [hstream] at hsplit
      obtain ⟨hcut, hstretch⟩ := lastStretch_eq hsplit hreceived
      have hpartials := hpushed.partials hcut
      have hopen := hshows hcut
      rw [hstretch] at hpartials hopen
      exact ⟨hpartials, hopen⟩

open Framer in
/-- A slice behind a start code is shown as far as it has been received. -/
theorem calls_follow_protocol_skippingMessages :
    ∃ verdict, (callsOfChunks skippingMessages [] [[0, 0, 1, 0x65, 0x88, 0]]).getLast? =
      some { bytes := [0x65, 0x88], complete := false, verdict } := by
  obtain ⟨concluded, reviewed, closed, earlier, kept, hcalls, -, hcomplete, hfirst, -, hshows⟩ :=
    (calls_follow_protocol skippingMessages [] [[0, 0, 1, 0x65, 0x88, 0], [0x99]]).2.2 []
      [0, 0, 1, 0x65, 0x88, 0] [[0x99]] rfl (List.cons_ne_nil _ _)
  obtain ⟨hpartials, hopen⟩ := hshows [] [0x65, 0x88, 0] rfl (by decide)
  -- no call has been made before, so there is none on this unit
  have hearlier : earlier = [] := by
    refine List.eq_nil_iff_forall_not_mem.mpr fun call hmem => ?_
    have hfalse := hpartials.incomplete call (List.mem_append_left _ hmem)
    have hconcluded : call ∈ concluded := by
      rw [show concluded = closed ++ earlier from hfirst]
      exact List.mem_append_right _ hmem
    rw [hcomplete call hconcluded] at hfalse
    cases hfalse
  obtain ⟨verdict, hreviewed⟩ := hopen (by decide) (by simp [hearlier])
  refine ⟨verdict, ?_⟩
  rw [List.nil_append] at hcalls
  rw [hcalls, hreviewed, ← List.append_assoc, List.getLast?_concat]
  rfl

-- a message is ignored while it is open, and a slice is shown twice
example : Framer.callsOf skippingMessages [] [[0, 0, 1, 0x06, 5], [0x80, 0, 0], [1, 0x65, 0x88]] =
    [{ bytes := [0x06, 5], complete := false, verdict := .ignore },
     { bytes := [0x65, 0x88], complete := false, verdict := .keep },
     { bytes := [0x65, 0x88], complete := true, verdict := .keep }] := by
  decide +kernel

end H264.Framing
