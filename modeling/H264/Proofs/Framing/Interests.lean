import H264.Proofs.Framing.Chunks
import H264.Proofs.Framing.Streams

/-!
# Framing with an interest

A framer whose interest has some units ignored stays beside one that keeps every unit. Both hold the
same bytes, but for a unit that is passed over: of that the first keeps what a start code could
begin in (`Beside`). So no unit is lost, whatever the interest remembers and whenever it decides.

* `Sifted` — every unit is either kept or ignored, by a verdict that is allowed for its first byte;
* `beside_push` — what one chunk preserves, and `beside_pushes` what a run of chunks does;
* **`interest_splits_units`** — the units kept are some of all units, in order, and with the ignored
  ones they are all of them.
-/

namespace H264.Framing

/-! ## Verdicts -/

section Verdicts

variable {σ : Type}

/-- The verdicts of an interest on a unit, whatever it has seen before, are ones that are allowed
for the first byte of the unit. -/
def Interest.Within (interest : Interest σ) (allows : UInt8 → Verdict → Prop) : Prop :=
  ∀ (unit : NalUnit) (complete : Bool) (memory : σ) (byte : UInt8),
    unit.bytes.head? = some byte → allows byte ((interest.judge unit complete).run memory).1

/-- The first byte of a unit decides whether it is ignored. -/
def Interest.JudgesBy (interest : Interest σ) (verdict : UInt8 → Verdict) : Prop :=
  interest.Within fun byte given => given = verdict byte

end Verdicts

/-- Of some units, those that are kept and the number of those that are ignored, each by a verdict
that is allowed for its first byte. -/
inductive Sifted (allows : UInt8 → Verdict → Prop) : List Bytes → List Bytes → Nat → Prop
  | nil : Sifted allows [] [] 0
  | keep {byte : UInt8} {rest : Bytes} {units kept : List Bytes} {ignored : Nat}
      (verdict : allows byte .keep) (others : Sifted allows units kept ignored) :
      Sifted allows ((byte :: rest) :: units) ((byte :: rest) :: kept) ignored
  | ignore {byte : UInt8} {rest : Bytes} {units kept : List Bytes} {ignored : Nat}
      (verdict : allows byte .ignore) (others : Sifted allows units kept ignored) :
      Sifted allows ((byte :: rest) :: units) kept (ignored + 1)

namespace Sifted

variable {allows : UInt8 → Verdict → Prop} {units kept units' kept' : List Bytes}
  {ignored ignored' : Nat}

theorem append (hfront : Sifted allows units kept ignored)
    (hback : Sifted allows units' kept' ignored') :
    Sifted allows (units ++ units') (kept ++ kept') (ignored + ignored') := by
  induction hfront with
  | nil =>
    rw [Nat.zero_add]
    exact hback
  | keep verdict _ ih => exact .keep verdict ih
  | ignore verdict _ ih =>
    rw [Nat.add_right_comm]
    exact .ignore verdict ih

theorem sublist (h : Sifted allows units kept ignored) : kept.Sublist units := by
  induction h with
  | nil => exact List.Sublist.refl []
  | keep _ _ ih => exact ih.cons_cons _
  | ignore _ _ ih => exact ih.cons _

theorem length_add (h : Sifted allows units kept ignored) :
    kept.length + ignored = units.length := by
  induction h with
  | nil => rfl
  | keep _ _ ih =>
    rw [List.length_cons, List.length_cons, ← ih]
    omega
  | ignore _ _ ih =>
    rw [List.length_cons, ← ih]
    omega

/-- Where the first byte leaves no choice, the units kept are those that it does not have
ignored. -/
theorem eq_filter {verdict : UInt8 → Verdict}
    (h : Sifted (fun byte given => given = verdict byte) units kept ignored) :
    kept = units.filter fun unit => unit.head?.map verdict ≠ some .ignore := by
  induction h with
  | nil => rfl
  | @keep byte rest _ _ _ hverdict _ ih =>
    have hkeeps : (byte :: rest).head?.map verdict ≠ some .ignore := by
      rw [List.head?_cons, Option.map_some, ← hverdict]
      simp
    rw [List.filter_cons_of_pos (by simpa using hkeeps), ← ih]
  | @ignore byte rest _ _ _ hverdict _ ih =>
    have hignores : (byte :: rest).head?.map verdict = some .ignore := by
      rw [List.head?_cons, Option.map_some, ← hverdict]
    rw [List.filter_cons_of_neg (by simpa using hignores), ← ih]

end Sifted

/-! ## The unit in progress -/

/-- The unit that begins with these bytes is not empty and may be ignored. -/
def MayIgnore (allows : UInt8 → Verdict → Prop) (bytes : Bytes) : Prop :=
  ∃ byte rest, trimZeros bytes = byte :: rest ∧ allows byte .ignore

theorem isPrefix_trimZeros (bytes : Bytes) : trimZeros bytes <+: bytes :=
  List.rdropWhile_prefix (· == 0) bytes

/-- More bytes add to what is left without the zeros at the end. -/
theorem trimZeros_isPrefix_append (bytes later : Bytes) :
    trimZeros bytes <+: trimZeros (bytes ++ later) := by
  rw [trimZeros_append]
  by_cases hzeros : trimZeros later = []
  · rw [if_pos hzeros]
  · rw [if_neg hzeros]
    exact (isPrefix_trimZeros bytes).trans (List.prefix_append _ _)

/-- The start code that closes a unit takes nothing from it but zeros at its end. -/
theorem trimZeros_isPrefix_of_cut {bytes chunk before after : Bytes}
    (hopen : cutAtStartCode bytes = none)
    (hcut : cutAtStartCode (bytes ++ chunk) = some (before, after)) :
    trimZeros bytes <+: trimZeros before := by
  have hsplit := eq_of_cutAtStartCode hcut
  rw [List.append_assoc] at hsplit
  rcases List.append_eq_append_iff.mp hsplit with ⟨more, rfl, -⟩ | ⟨extra, rfl, hextra⟩
  · exact trimZeros_isPrefix_append bytes more
  · have htake : (startCode ++ after).take extra.length = extra := by
      rw [hextra, List.take_left]
    have hshort : extra.length < 3 := by
      by_contra hlong
      refine not_infix_of_cutAtStartCode hopen ⟨before, extra.drop 3, ?_⟩
      have hfront : extra.take 3 = startCode := by
        rw [← htake, List.take_take, Nat.min_eq_left (Nat.not_lt.mp hlong)]
        rfl
      rw [List.append_assoc, ← hfront, List.take_append_drop]
    -- so the start code takes at most the two zeros that it begins with
    have hzeros : trimZeros (before ++ extra) = trimZeros before := by
      obtain hlen | hlen | hlen : extra.length = 0 ∨ extra.length = 1 ∨ extra.length = 2 := by omega
      · rw [List.length_eq_zero_iff.mp hlen, List.append_nil]
      · rw [← htake, hlen]
        exact Rbsp.trimZeros_concat_zero before
      · rw [← htake, hlen]
        show trimZeros (before ++ ([0] ++ [0])) = _
        rw [← List.append_assoc, Rbsp.trimZeros_concat_zero, Rbsp.trimZeros_concat_zero]
    rw [hzeros]

/-- More of a unit changes neither that it is not empty nor its first byte. -/
theorem MayIgnore.of_isPrefix {allows : UInt8 → Verdict → Prop} {bytes longer : Bytes}
    (h : MayIgnore allows bytes) (hbegins : trimZeros bytes <+: trimZeros longer) :
    MayIgnore allows longer := by
  obtain ⟨byte, rest, htrim, hverdict⟩ := h
  obtain ⟨more, hmore⟩ := hbegins
  rw [htrim, List.cons_append] at hmore
  exact ⟨byte, rest ++ more, hmore.symm, hverdict⟩

namespace Framer

variable {σ : Type} {interest : Interest σ} {allows : UInt8 → Verdict → Prop}

/-! ## Asking the interest -/

/-- The framer with more units ignored. -/
def ignoring (framer : Framer) (count : Nat) : Framer :=
  { framer with ignored := framer.ignored + count }

theorem ignoring_eq (framer : Framer) (count : Nat) :
    framer.ignoring count = framer.addCounts 0 count := by
  simp only [ignoring, addCounts, Nat.add_comm]
  rfl

theorem ignoring_ignoring (framer : Framer) (first second : Nat) :
    (framer.ignoring first).ignoring second = framer.ignoring (first + second) := by
  simp only [ignoring, Nat.add_assoc]

theorem run_wants_of_keep {unit : NalUnit} {complete : Bool} {framer : Framer}
    {memory memory' : σ} (h : (interest.judge unit complete).run memory = (.keep, memory')) :
    (wants interest unit complete).run (framer, memory) = pure (true, framer, memory') := by
  have hjudge : interest.judge unit complete memory = (.keep, memory') := h
  simp only [wants, StateT.run_bind, StateT.run_get, pure_bind, hjudge]
  rfl

theorem run_wants_of_ignore {unit : NalUnit} {complete : Bool} {framer : Framer}
    {memory memory' : σ} (h : (interest.judge unit complete).run memory = (.ignore, memory')) :
    (wants interest unit complete).run (framer, memory) =
      pure (false, framer.ignoring 1, memory') := by
  have hjudge : interest.judge unit complete memory = (.ignore, memory') := h
  simp only [wants, StateT.run_bind, StateT.run_get, pure_bind, hjudge]
  rfl

/-- Asked about complete units, the interest sifts them. -/
theorem exists_run_select (hinterest : interest.Within allows) {units : List NalUnit}
    (hfilled : ∀ unit ∈ units, unit.bytes ≠ []) (framer : Framer) (memory : σ) :
    ∃ kept ignored memory', (select interest units).run (framer, memory) =
        pure (kept, framer.ignoring ignored, memory') ∧
      Sifted allows (units.map NalUnit.bytes) (kept.map NalUnit.bytes) ignored := by
  induction units generalizing framer memory with
  | nil => exact ⟨[], 0, memory, rfl, .nil⟩
  | cons unit units ih =>
    have hothers : ∀ unit ∈ units, unit.bytes ≠ [] :=
      fun other hmem => hfilled other (List.mem_cons_of_mem unit hmem)
    obtain ⟨byte, rest, hbytes⟩ := List.exists_cons_of_ne_nil (hfilled unit List.mem_cons_self)
    have hallowed := hinterest unit true memory byte (by rw [hbytes]; rfl)
    rcases hjudged : (interest.judge unit true).run memory with ⟨verdict, middle⟩
    rw [hjudged] at hallowed
    rw [List.map_cons, hbytes]
    cases verdict with
    | keep =>
      obtain ⟨kept, ignored, memory', hrun, hsifted⟩ := ih hothers framer middle
      refine ⟨unit :: kept, ignored, memory', ?_, ?_⟩
      · simp only [select, StateT.run_bind, run_wants_of_keep hjudged, pure_bind, hrun]
        rfl
      · rw [List.map_cons, hbytes]
        exact .keep hallowed hsifted
    | ignore =>
      obtain ⟨kept, ignored, memory', hrun, hsifted⟩ := ih hothers (framer.ignoring 1) middle
      refine ⟨kept, ignored + 1, memory', ?_, .ignore hallowed hsifted⟩
      simp only [select, StateT.run_bind, run_wants_of_ignore hjudged, pure_bind, hrun,
        ignoring_ignoring, Nat.add_comm 1]
      rfl

/-! ## Two framers side by side -/

/-- The framer that passes over the rest of the unit in progress. -/
def passOver (framer : Framer) : Framer :=
  { framer.keepTail framer.pending with phase := .ignoring }

theorem searched_passOver (framer : Framer) : framer.passOver.Searched :=
  ⟨(framer.searched_keepTail framer.pending).cut, Nat.zero_le _⟩

/-- A framer that sifts beside one that keeps everything, after the same bytes: of the units that
are complete, `ignored` have been ignored, and the one in progress may be passed over. -/
inductive Beside (allows : UInt8 → Verdict → Prop) (whole : Framer) : Framer → Nat → Prop
  | alike (searched : whole.Searched) (ignored : Nat) :
      Beside allows whole (whole.ignoring ignored) ignored
  | passing (phase : whole.phase = .inUnit) (searched : whole.Searched)
      (verdict : MayIgnore allows whole.pending) (ignored : Nat) :
      Beside allows whole (whole.ignoring (ignored + 1)).passOver ignored

theorem Beside.ignoring {whole framer : Framer} {ignored : Nat}
    (h : Beside allows whole framer ignored) (more : Nat) :
    Beside allows whole (framer.ignoring more) (ignored + more) := by
  cases h with
  | alike searched =>
    rw [ignoring_ignoring]
    exact .alike searched (ignored + more)
  | passing phase searched verdict =>
    have hcount : ((whole.ignoring (ignored + 1)).passOver).ignoring more =
        (whole.ignoring (ignored + more + 1)).passOver := by
      simp only [Framer.ignoring, passOver, keepTail, Framer.mk.injEq, true_and]
      omega
    rw [hcount]
    exact .passing phase searched verdict (ignored + more)

/-! ## One chunk without the interest -/

/-- A chunk without a start code leaves a framer outside units where it is; any other is entered. -/
theorem receive_cases (framer : Framer) (chunk : Bytes) :
    ((framer.receive chunk).1 = [] ∧ (framer.receive chunk).2.ignored = framer.ignored) ∨
      ∃ (other : Framer) (segments : List NalUnit), other.ignored = framer.ignored ∧
        framer.receive chunk = other.enter segments := by
  cases hphase : framer.phase with
  | inUnit =>
    refine .inr ⟨framer, segmentsFrom framer.resume (framer.pending ++ chunk), rfl, ?_⟩
    simp only [receive, hphase]
  | seeking =>
    cases hcut : cutFrom framer.resume (framer.pending ++ chunk) with
    | none =>
      refine .inl ⟨by simp only [receive, hphase, hcut], ?_⟩
      simp only [receive, hphase, hcut]
      rfl
    | some cut =>
      simp only [receive, hphase, hcut]
      exact .inr ⟨framer.discard cut.1, _, rfl, rfl⟩
  | ignoring =>
    cases hcut : cutFrom framer.resume (framer.pending ++ chunk) with
    | none =>
      refine .inl ⟨by simp only [receive, hphase, hcut], ?_⟩
      simp only [receive, hphase, hcut]
      rfl
    | some cut =>
      simp only [receive, hphase, hcut]
      exact .inr ⟨framer, _, rfl, rfl⟩

theorem bytes_ne_nil_of_receive (framer : Framer) (chunk : Bytes) :
    ∀ unit ∈ (framer.receive chunk).1, unit.bytes ≠ [] := by
  rcases framer.receive_cases chunk with ⟨hnone, -⟩ | ⟨other, segments, -, hentered⟩
  · intro unit hmem
    rw [hnone] at hmem
    cases hmem
  · intro unit hmem
    rw [hentered] at hmem
    simpa using (List.mem_filter.mp hmem).2

theorem ignored_receive (framer : Framer) (chunk : Bytes) :
    (framer.receive chunk).2.ignored = framer.ignored := by
  rcases framer.receive_cases chunk with ⟨-, hsame⟩ | ⟨other, segments, hsame, hentered⟩
  · exact hsame
  · rw [hentered, ← hsame]
    rfl

/-- The rest of a unit is passed over up to a start code, which is found all the same. -/
theorem beside_receive_passing {whole : Framer} (chunk : Bytes) (hphase : whole.phase = .inUnit)
    (hsearched : whole.Searched) (hverdict : MayIgnore allows whole.pending) (ignored : Nat) :
    ∃ skipped count, Sifted allows skipped [] count ∧
      (whole.receive chunk).1.map NalUnit.bytes = skipped ++
        ((whole.ignoring (ignored + 1)).passOver.receive chunk).1.map NalUnit.bytes ∧
      Beside allows (whole.receive chunk).2
        ((whole.ignoring (ignored + 1)).passOver.receive chunk).2 (ignored + count) := by
  have hpassing : (whole.ignoring (ignored + 1)).passOver.phase = .ignoring := rfl
  have htail := (whole.ignoring (ignored + 1)).searched_passOver
  have hwhole := cutAtStartCode_append_chunk hsearched.cut chunk
  have hstays := searched_receive hsearched chunk
  obtain ⟨hunits, hlast⟩ := whole.enter_segments 0 (whole.pending ++ chunk)
  rw [receive_inUnit hphase hsearched] at hstays ⊢
  cases hcut : cutAtStartCode (tail whole.pending ++ chunk) with
  | none =>
    rw [hcut, Option.map_none] at hwhole
    rw [hlast, lastStretch_of_none hwhole] at hstays
    rw [receive_ignoring_none hpassing htail hcut, hlast, hunits, stretches_of_none hwhole,
      lastStretch_of_none hwhole]
    refine ⟨[], 0, .nil, rfl, ?_⟩
    show Beside allows _ ((whole.ignoring (ignored + 1)).passOver.keepTail
      (tail whole.pending ++ chunk)) ignored
    rw [keepTail, tail_tail_append]
    exact .passing rfl hstays (hverdict.of_isPrefix (trimZeros_isPrefix_append _ chunk)) ignored
  | some cut =>
    obtain ⟨before, after⟩ := cut
    rw [hcut, Option.map_some] at hwhole
    obtain ⟨byte, rest, htrim, hallowed⟩ :=
      hverdict.of_isPrefix (trimZeros_isPrefix_of_cut hsearched.cut hwhole)
    obtain ⟨hothers, hrest⟩ := (whole.ignoring (ignored + 1)).passOver.enter_segments
      (before.length + 3) after
    rw [hlast, lastStretch_of_some hwhole] at hstays
    rw [receive_ignoring_some hpassing htail hcut, hlast, hunits, hothers, hrest,
      stretches_of_some hwhole, lastStretch_of_some hwhole,
      List.dropLast_cons_of_ne_nil (stretches_ne_nil after)]
    refine ⟨[byte :: rest], 1, .ignore hallowed .nil, ?_, ?_⟩
    · simp [trimmed, htrim]
    · exact .alike hstays (ignored + 1)

theorem beside_receive {whole framer : Framer} {ignored : Nat}
    (h : Beside allows whole framer ignored) (chunk : Bytes) :
    ∃ skipped count, Sifted allows skipped [] count ∧
      (whole.receive chunk).1.map NalUnit.bytes =
        skipped ++ (framer.receive chunk).1.map NalUnit.bytes ∧
      Beside allows (whole.receive chunk).2 (framer.receive chunk).2 (ignored + count) := by
  cases h with
  | alike searched =>
    rw [ignoring_eq, receive_addCounts, ← ignoring_eq]
    exact ⟨[], 0, .nil, rfl, .alike (searched_receive searched chunk) ignored⟩
  | passing phase searched verdict =>
    exact beside_receive_passing chunk phase searched verdict ignored

/-! ## One chunk with the interest -/

theorem openUnit?_eq_some {framer : Framer} {unit : NalUnit} (h : framer.openUnit? = some unit) :
    framer.phase = .inUnit ∧ unit.bytes = trimZeros framer.pending ∧ unit.bytes ≠ [] := by
  unfold openUnit? at h
  dsimp only at h
  by_cases hopen : framer.phase = .inUnit ∧ trimZeros framer.pending ≠ []
  · rw [if_pos hopen] at h
    cases h
    exact ⟨hopen.1, rfl, hopen.2⟩
  · rw [if_neg hopen] at h
    cases h

/-- The interest may have the rest of the unit in progress passed over. -/
theorem beside_reviewOpen (hinterest : interest.Within allows) {whole framer : Framer}
    {ignored : Nat} (h : Beside allows whole framer ignored) (memory : σ) :
    ∃ framer' memory', (reviewOpen interest).run (framer, memory) = pure ((), framer', memory') ∧
      Beside allows whole framer' ignored := by
  cases hopen : framer.openUnit? with
  | none =>
    refine ⟨framer, memory, ?_, h⟩
    simp only [reviewOpen, StateT.run_bind, StateT.run_get, pure_bind, hopen]
    rfl
  | some unit =>
    obtain ⟨hphase, hbytes, hfilled⟩ := openUnit?_eq_some hopen
    cases h with
    | passing => cases hphase
    | alike searched =>
      obtain ⟨byte, rest, hfirst⟩ := List.exists_cons_of_ne_nil hfilled
      have hallowed := hinterest unit false memory byte (by rw [hfirst]; rfl)
      rcases hjudged : (interest.judge unit false).run memory with ⟨verdict, memory'⟩
      rw [hjudged] at hallowed
      cases verdict with
      | keep =>
        refine ⟨whole.ignoring ignored, memory', ?_, .alike searched ignored⟩
        simp only [reviewOpen, StateT.run_bind, StateT.run_get, pure_bind, hopen,
          run_wants_of_keep hjudged]
        rfl
      | ignore =>
        refine ⟨(whole.ignoring (ignored + 1)).passOver, memory', ?_, ?_⟩
        · simp only [reviewOpen, StateT.run_bind, StateT.run_get, pure_bind, hopen,
            run_wants_of_ignore hjudged, ignoring_ignoring]
          rfl
        · have hwhole : whole.phase = .inUnit := hphase
          refine .passing hwhole searched ⟨byte, rest, ?_, hallowed⟩ ignored
          exact hbytes.symm.trans hfirst

/-- One chunk: the units that it completes are sifted, and the two framers stay side by side. -/
theorem beside_push (hinterest : interest.Within allows) {whole framer : Framer} {ignored : Nat}
    (h : Beside allows whole framer ignored) (chunk : Bytes) (memory : σ) :
    ∃ kept more framer' memory',
      (push interest chunk).run (framer, memory) = pure (kept, framer', memory') ∧
      Sifted allows ((whole.feed chunk).1.map NalUnit.bytes) (kept.map NalUnit.bytes) more ∧
      Beside allows (whole.feed chunk).2 framer' (ignored + more) := by
  by_cases hchunk : chunk = []
  · subst hchunk
    exact ⟨[], 0, framer, memory, rfl, .nil, h⟩
  · have hempty : ¬chunk.isEmpty = true := by simpa using hchunk
    obtain ⟨skipped, count, hskipped, hunits, hreceived⟩ := beside_receive h chunk
    obtain ⟨kept, dropped, middle, hselect, hsifted⟩ := exists_run_select hinterest
      (framer.bytes_ne_nil_of_receive chunk) (framer.receive chunk).2 memory
    obtain ⟨framer', memory', hreview, hbeside⟩ :=
      beside_reviewOpen hinterest (hreceived.ignoring dropped) middle
    rw [feed_eq_receive whole hchunk]
    refine ⟨kept, count + dropped, framer', memory', ?_, ?_, ?_⟩
    · simp only [push, if_neg hempty, StateT.run_bind, StateT.run_get, StateT.run_set, pure_bind,
        hselect, hreview]
      rfl
    · rw [hunits]
      exact hskipped.append hsifted
    · rw [← Nat.add_assoc]
      exact hbeside

/-! ## Whole streams -/

/-- A run of chunks. -/
theorem beside_pushes (hinterest : interest.Within allows) {whole framer : Framer} {ignored : Nat}
    (h : Beside allows whole framer ignored) (chunks : List Bytes) (memory : σ) :
    ∃ kept more framer' memory',
      (chunks.mapM (push interest)).run (framer, memory) = pure (kept, framer', memory') ∧
      Sifted allows ((whole.feedAll chunks).1.map NalUnit.bytes)
        (kept.flatten.map NalUnit.bytes) more ∧
      Beside allows (whole.feedAll chunks).2 framer' (ignored + more) := by
  induction chunks generalizing whole framer ignored memory with
  | nil => exact ⟨[], 0, framer, memory, rfl, .nil, h⟩
  | cons chunk chunks ih =>
    obtain ⟨first, count, middle, memory', hpush, hfirst, hmiddle⟩ :=
      beside_push hinterest h chunk memory
    obtain ⟨others, more, framer', memory'', hpushes, hothers, hlast⟩ := ih hmiddle memory'
    refine ⟨first :: others, count + more, framer', memory'', ?_, ?_, ?_⟩
    · rw [List.mapM_cons, StateT.run_bind, hpush, pure_bind, StateT.run_bind, hpushes]
      rfl
    · rw [List.flatten_cons, List.map_append]
      show Sifted allows (((whole.feed chunk).1 ++ _).map NalUnit.bytes) _ _
      rw [List.map_append]
      exact hfirst.append hothers
    · rw [← Nat.add_assoc]
      exact hlast

/-- At the end of the stream the unit in progress is sifted too, and no other is left. -/
theorem beside_flush (hinterest : interest.Within allows) {whole framer : Framer} {ignored : Nat}
    (h : Beside allows whole framer ignored) (memory : σ) :
    ∃ kept more memory', (flush interest).run (framer, memory) =
        pure (kept, whole.finish.2.ignoring (ignored + more), memory') ∧
      Sifted allows (whole.finish.1.map NalUnit.bytes) (kept.map NalUnit.bytes) more := by
  rw [finish_eq]
  cases h with
  | alike searched =>
    have hfilled : ∀ unit ∈ whole.openUnit?.toList, unit.bytes ≠ [] := by
      intro unit hmem
      exact (openUnit?_eq_some (Option.mem_toList.mp hmem)).2.2
    obtain ⟨kept, more, memory', hselect, hsifted⟩ :=
      exists_run_select hinterest hfilled (whole.ignoring ignored) memory
    refine ⟨kept, more, memory', ?_, hsifted⟩
    have hopen : (whole.ignoring ignored).openUnit? = whole.openUnit? := rfl
    simp only [flush, StateT.run_bind, StateT.run_get, pure_bind, hopen, hselect,
      ignoring_ignoring]
    show (pure (kept, (if whole.phase = .seeking then (whole.ignoring _).discard whole.pending
      else whole.ignoring _).reset, memory') : Id (List NalUnit × Framer × σ)) = _
    by_cases hphase : whole.phase = .seeking
    · rw [if_pos hphase, if_pos hphase]
      rfl
    · rw [if_neg hphase, if_neg hphase]
      rfl
  | passing phase searched verdict =>
    obtain ⟨byte, rest, htrim, hallowed⟩ := verdict
    refine ⟨[], 1, memory, ?_, ?_⟩
    · have hseeking : ¬whole.phase = .seeking := by simp [phase]
      rw [if_neg hseeking]
      rfl
    · have hopen : whole.openUnit? = some { bytes := byte :: rest } := by
        simp [openUnit?, phase, htrim]
      rw [hopen]
      exact .ignore hallowed .nil

/-- The units that an interest leaves of a stream given in chunks, and the framer after its end. -/
def frameWith (interest : Interest σ) (memory : σ) (framer : Framer) (chunks : List Bytes) :
    List NalUnit × Framer :=
  let (units, framer, _) := (pushAll interest chunks).run (framer, memory)
  (units, framer)

theorem ignored_feed (framer : Framer) (chunk : Bytes) :
    (framer.feed chunk).2.ignored = framer.ignored := by
  by_cases hchunk : chunk = []
  · rw [hchunk]
    rfl
  · rw [feed_eq_receive framer hchunk, ignored_receive]

/-- A framer that keeps everything ignores nothing. -/
theorem ignored_frame (framer : Framer) (chunks : List Bytes) :
    (framer.frame chunks).2.ignored = framer.ignored := by
  have hfinish : ∀ framer : Framer, framer.finish.2.ignored = framer.ignored := by
    intro framer
    rw [finish_eq]
    by_cases hphase : framer.phase = .seeking
    · rw [if_pos hphase]
      rfl
    · rw [if_neg hphase]
      rfl
  rw [frame_eq, hfinish]
  induction chunks generalizing framer with
  | nil => rfl
  | cons chunk chunks ih => exact (ih _).trans (ignored_feed framer chunk)

/-- A whole stream is sifted, and but for the units that are ignored the framer ends as one that
keeps everything. -/
theorem sifted_frameWith (hinterest : interest.Within allows) (memory : σ) (framer : Framer)
    (hsearched : framer.Searched) (chunks : List Bytes) :
    ∃ ignored, Sifted allows ((framer.frame chunks).1.map NalUnit.bytes)
        ((frameWith interest memory framer chunks).1.map NalUnit.bytes) ignored ∧
      (frameWith interest memory framer chunks).2 = (framer.frame chunks).2.ignoring ignored := by
  have hstart : Beside allows framer framer 0 := .alike hsearched 0
  obtain ⟨kept, more, middle, memory', hpushes, hsifted, hbeside⟩ :=
    beside_pushes hinterest hstart chunks memory
  obtain ⟨last, count, memory'', hflush, hlast⟩ := beside_flush hinterest hbeside memory'
  have hframe : frameWith interest memory framer chunks =
      (kept.flatten ++ last, (framer.feedAll chunks).2.finish.2.ignoring (0 + more + count)) := by
    simp only [frameWith, pushAll, StateT.run_bind, hpushes, pure_bind, hflush]
    rfl
  rw [hframe, frame_eq]
  refine ⟨more + count, ?_, ?_⟩
  · rw [List.map_append, List.map_append]
    exact hsifted.append hlast
  · rw [Nat.zero_add]

/-- What is discarded before the first unit does not depend on an interest. -/
theorem discarded_frameWith (interest : Interest σ) (memory : σ) (chunks : List Bytes) :
    (frameWith interest memory {} chunks).2.discarded = (frame {} chunks).2.discarded := by
  have hanything : interest.Within fun _ _ => True := fun _ _ _ _ _ => trivial
  obtain ⟨ignored, -, hended⟩ := sifted_frameWith hanything memory {} after_nil.searched chunks
  rw [hended]
  rfl

end Framer

/-- **Units are kept or ignored, never lost.** Whatever an interest remembers, the units that it
leaves of a stream in chunks are some of all units of the stream, in order, and with those that have
been ignored they are all of them; what is discarded before the first unit is the same. An interest
that goes by the first byte of a unit leaves just the units that it does not have ignored, however
the stream is cut. -/
theorem interest_splits_units {σ : Type} (interest : Interest σ) (memory : σ)
    (chunks : List Bytes) :
    let all := (Framer.frame {} chunks).1.map NalUnit.bytes
    let kept := (Framer.frameWith interest memory {} chunks).1.map NalUnit.bytes
    let ended := (Framer.frameWith interest memory {} chunks).2
    kept.Sublist all ∧ kept.length + ended.ignored = all.length ∧
      ended.discarded = (Framer.frame {} chunks).2.discarded ∧
      ∀ verdict : UInt8 → Verdict, interest.JudgesBy verdict →
        kept = all.filter fun unit => unit.head?.map verdict ≠ some .ignore := by
  intro all kept ended
  have hanything : interest.Within fun _ _ => True := fun _ _ _ _ _ => trivial
  obtain ⟨ignored, hsifted, hended⟩ :=
    Framer.sifted_frameWith hanything memory {} Framer.after_nil.searched chunks
  refine ⟨hsifted.sublist, ?_, Framer.discarded_frameWith interest memory chunks, ?_⟩
  · have hcount : ended.ignored = ignored := by
      show (Framer.frameWith interest memory {} chunks).2.ignored = ignored
      rw [hended]
      show (Framer.frame {} chunks).2.ignored + ignored = ignored
      rw [Framer.ignored_frame]
      exact Nat.zero_add ignored
    rw [hcount]
    exact hsifted.length_add
  · intro verdict hverdict
    obtain ⟨_, hbyFirst, -⟩ :=
      Framer.sifted_frameWith hverdict memory {} Framer.after_nil.searched chunks
    exact hbyFirst.eq_filter

/-- Supplemental messages are ignored. -/
def skipMessages (byte : UInt8) : Verdict :=
  if UnitType.ofByte byte = .sei then .ignore else .keep

/-- An interest that ignores supplemental messages and remembers all that it has been shown. -/
def skippingMessages : Interest (List (NalUnit × Bool)) where
  judge unit complete := do
    modify ((unit, complete) :: ·)
    return (unit.bytes.head?.map skipMessages).getD .keep

theorem skippingMessages_judgesBy : skippingMessages.JudgesBy skipMessages := by
  intro unit complete shown byte hfirst
  show (unit.bytes.head?.map skipMessages).getD .keep = skipMessages byte
  rw [hfirst]
  rfl

/-- A message that is ignored while it is open, before a slice behind a start code that is cut. -/
theorem interest_splits_units_skippingMessages :
    skippingMessages.JudgesBy skipMessages ∧
      (Framer.frameWith skippingMessages [] {}
        [[0, 0, 1, 0x06, 5], [0x80, 0, 0], [1, 0x65, 0x88]]).1.map NalUnit.bytes =
      [[0x65, 0x88]] := by
  refine ⟨skippingMessages_judgesBy, ?_⟩
  have hkept := (interest_splits_units skippingMessages []
    [[0, 0, 1, 0x06, 5], [0x80, 0, 0], [1, 0x65, 0x88]]).2.2.2 skipMessages
    skippingMessages_judgesBy
  rw [hkept]
  decide +kernel

end H264.Framing
