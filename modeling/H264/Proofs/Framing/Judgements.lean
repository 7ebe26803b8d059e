import H264.Proofs.Framing.Interests

/-!
# The calls of an interest

An interest that records its calls answers as before, so a run with it is the run without, and its
calls besides: `Framer.Makes` says both of an action. `Follows` is the protocol of the calls: units
one after another, each shown as it grows and then, unless it was ignored, once as a whole.
-/

namespace H264.Framing

/-! ## Recording -/

/-- A call of an interest: what it was shown and what it answered. -/
structure Judgement where
  bytes : Bytes
  complete : Bool
  verdict : Verdict
deriving DecidableEq, Repr

/-- An interest that also remembers its calls, the last one at the end. -/
def Interest.recorded {σ : Type} (interest : Interest σ) : Interest (σ × List Judgement) where
  judge unit complete := do
    let (memory, calls) ← get
    let (verdict, memory) := Id.run ((interest.judge unit complete).run memory)
    set (memory, calls ++ [{ bytes := unit.bytes, complete, verdict }])
    return verdict

/-! ## The protocol -/

/-- Calls on a unit that is still open: what they show begins the unit, does not end in a zero and
never gets shorter. -/
structure Partials (unit : Bytes) (calls : List Judgement) : Prop where
  incomplete : ∀ call ∈ calls, call.complete = false
  shown : ∀ call ∈ calls,
    call.bytes <+: unit ∧ ∃ byte, call.bytes.getLast? = some byte ∧ byte ≠ 0
  growing : calls.Pairwise fun earlier later => earlier.bytes.length ≤ later.bytes.length

/-- All calls on a unit: some while it is open, and one on the whole unit unless one before had it
ignored, which is the last one then. -/
inductive UnitCalls (unit : Bytes) : List Judgement → Prop
  | toTheEnd {earlier : List Judgement} (partials : Partials unit earlier)
      (kept : ∀ call ∈ earlier, call.verdict = .keep) (verdict : Verdict) :
      UnitCalls unit (earlier ++ [{ bytes := unit, complete := true, verdict }])
  | cutShort {earlier : List Judgement} {bytes : Bytes}
      (partials : Partials unit
        (earlier ++ [{ bytes, complete := false, verdict := .ignore }]))
      (kept : ∀ call ∈ earlier, call.verdict = .keep) :
      UnitCalls unit (earlier ++ [{ bytes, complete := false, verdict := .ignore }])

/-- The calls on units, one unit after the other, and the units that are returned: those that no
call on them had ignored. -/
inductive Follows : List Bytes → List Judgement → List Bytes → Prop
  | nil : Follows [] [] []
  | returned {unit : Bytes} {units kept : List Bytes} {calls later : List Judgement}
      (protocol : UnitCalls unit calls) (wanted : ∀ call ∈ calls, call.verdict = .keep)
      (others : Follows units later kept) : Follows (unit :: units) (calls ++ later) (unit :: kept)
  | dropped {unit : Bytes} {units kept : List Bytes} {calls later : List Judgement}
      (protocol : UnitCalls unit calls) (unwanted : ∃ call ∈ calls, call.verdict = .ignore)
      (others : Follows units later kept) : Follows (unit :: units) (calls ++ later) kept

namespace Partials

variable {unit : Bytes} {calls : List Judgement}

theorem nil : Partials unit [] := by
  refine ⟨?_, ?_, .nil⟩
  · intro call hmem
    cases hmem
  · intro call hmem
    cases hmem

/-- What begins a unit begins a longer one. -/
theorem mono (h : Partials unit calls) {longer : Bytes} (hbegins : unit <+: longer) :
    Partials longer calls where
  incomplete := h.incomplete
  shown call hmem := ⟨(h.shown call hmem).1.trans hbegins, (h.shown call hmem).2⟩
  growing := h.growing

/-- A call may follow that shows all of the unit so far. -/
theorem concat (h : Partials unit calls) (hlast : ∃ byte, unit.getLast? = some byte ∧ byte ≠ 0)
    (verdict : Verdict) :
    Partials unit (calls ++ [{ bytes := unit, complete := false, verdict }]) where
  incomplete := by
    rw [List.forall_mem_append, List.forall_mem_singleton]
    exact ⟨h.incomplete, rfl⟩
  shown := by
    rw [List.forall_mem_append, List.forall_mem_singleton]
    exact ⟨h.shown, List.prefix_rfl, hlast⟩
  growing := by
    refine List.pairwise_append.mpr ⟨h.growing, List.pairwise_singleton _ _, ?_⟩
    intro earlier hearlier later hlater
    obtain rfl := List.mem_singleton.mp hlater
    exact (h.shown earlier hearlier).1.length_le

end Partials

namespace Follows

variable {unit : Bytes} {units units' kept kept' : List Bytes}
  {opened calls calls' : List Judgement}

theorem append (hfront : Follows units calls kept) (hback : Follows units' calls' kept') :
    Follows (units ++ units') (calls ++ calls') (kept ++ kept') := by
  induction hfront with
  | nil => exact hback
  | returned protocol wanted _ ih =>
    rw [List.append_assoc]
    exact .returned protocol wanted ih
  | dropped protocol unwanted _ ih =>
    rw [List.append_assoc]
    exact .dropped protocol unwanted ih

/-- A unit that is kept while it is open and in the end is returned. -/
theorem keep (hopened : Partials unit opened) (hkept : ∀ call ∈ opened, call.verdict = .keep)
    (hothers : Follows units calls kept) :
    Follows (unit :: units)
      (opened ++ { bytes := unit, complete := true, verdict := .keep } :: calls)
      (unit :: kept) := by
  rw [List.append_cons]
  refine .returned (.toTheEnd hopened hkept .keep) ?_ hothers
  rw [List.forall_mem_append, List.forall_mem_singleton]
  exact ⟨hkept, rfl⟩

/-- A unit that is ignored in the end is not. -/
theorem ignore (hopened : Partials unit opened) (hkept : ∀ call ∈ opened, call.verdict = .keep)
    (hothers : Follows units calls kept) :
    Follows (unit :: units)
      (opened ++ { bytes := unit, complete := true, verdict := .ignore } :: calls) kept := by
  rw [List.append_cons]
  exact .dropped (.toTheEnd hopened hkept .ignore)
    ⟨_, List.mem_append_right _ (List.mem_singleton.mpr rfl), rfl⟩ hothers

end Follows

/-! ## Units that are complete -/

/-- Whole units, each with one call, and those that are kept. -/
inductive Concluded : List Bytes → List Judgement → List Bytes → Prop
  | nil : Concluded [] [] []
  | keep {unit : Bytes} {units kept : List Bytes} {calls : List Judgement}
      (others : Concluded units calls kept) :
      Concluded (unit :: units)
        ({ bytes := unit, complete := true, verdict := .keep } :: calls) (unit :: kept)
  | ignore {unit : Bytes} {units kept : List Bytes} {calls : List Judgement}
      (others : Concluded units calls kept) :
      Concluded (unit :: units)
        ({ bytes := unit, complete := true, verdict := .ignore } :: calls) kept

namespace Concluded

variable {unit : Bytes} {units kept : List Bytes} {opened calls : List Judgement}

theorem eq_nil (h : Concluded [] calls kept) : calls = [] ∧ kept = [] := by
  cases h
  exact ⟨rfl, rfl⟩

theorem complete (h : Concluded units calls kept) : ∀ call ∈ calls, call.complete = true := by
  induction h with
  | nil =>
    intro call hmem
    cases hmem
  | keep _ ih => exact List.forall_mem_cons.mpr ⟨rfl, ih⟩
  | ignore _ ih => exact List.forall_mem_cons.mpr ⟨rfl, ih⟩

theorem follows (h : Concluded units calls kept) : Follows units calls kept := by
  induction h with
  | nil => exact .nil
  | keep _ ih => exact .keep .nil (fun _ hmem => nomatch hmem) ih
  | ignore _ ih => exact .ignore .nil (fun _ hmem => nomatch hmem) ih

/-- The first unit may have been shown before, while it was open. -/
theorem follows_of_partials (h : Concluded (unit :: units) calls kept)
    (hopened : Partials unit opened) (hkept : ∀ call ∈ opened, call.verdict = .keep) :
    Follows (unit :: units) (opened ++ calls) kept := by
  cases h with
  | keep others => exact .keep hopened hkept others.follows
  | ignore others => exact .ignore hopened hkept others.follows

end Concluded

namespace Framer

variable {σ α β : Type} {interest : Interest σ} {framer framer₁ framer₂ : Framer}
  {memory memory₁ memory₂ : σ} {calls calls₁ calls₂ : List Judgement}

/-! ## What actions make of a framer -/

/-- What an action that asks an interest makes of a framer, and the calls that it makes. The same
action with the interest recorded has the same value and adds the calls to those before. -/
structure Makes (interest : Interest σ)
    (action : {τ : Type} → Interest τ → StateM (Framer × τ) α) (framer : Framer) (memory : σ)
    (value : α) (framer₁ : Framer) (memory₁ : σ) (calls : List Judgement) : Prop where
  run : (action interest).run (framer, memory) = pure (value, framer₁, memory₁)
  recorded : ∀ before, (action interest.recorded).run (framer, memory, before) =
    pure (value, framer₁, memory₁, before ++ calls)

namespace Makes

variable {action : {τ : Type} → Interest τ → StateM (Framer × τ) α} {value : α}

/-- Actions in a row make their calls one after the other. -/
theorem bind (h : Makes interest action framer memory value framer₁ memory₁ calls₁)
    (next : {τ : Type} → Interest τ → α → StateM (Framer × τ) β) {result : β}
    (hnext : Makes interest (fun other => next other value) framer₁ memory₁ result framer₂ memory₂
      calls₂) :
    Makes interest (fun other => action other >>= next other) framer memory result framer₂ memory₂
      (calls₁ ++ calls₂) where
  run := by
    rw [StateT.run_bind, h.run, pure_bind]
    exact hnext.run
  recorded before := by
    rw [StateT.run_bind, h.recorded, pure_bind, ← List.append_assoc]
    exact hnext.recorded (before ++ calls₁)

theorem pure (value : α) (framer : Framer) (memory : σ) :
    Makes interest (fun _ => Pure.pure value) framer memory value framer memory [] where
  run := rfl
  recorded before := by
    rw [List.append_nil]
    rfl

/-- What is made of the value afterwards makes no calls. -/
theorem map (h : Makes interest action framer memory value framer₁ memory₁ calls) (f : α → β) :
    Makes interest (fun other => do return f (← action other)) framer memory (f value) framer₁
      memory₁ calls := by
  have hpure := h.bind (fun _ value => Pure.pure (f value)) (.pure _ framer₁ memory₁)
  rw [List.append_nil] at hpure
  exact hpure

/-- Another action does what an action does from a framer on. -/
theorem of_run (h : Makes interest action framer memory value framer₁ memory₁ calls)
    {other : {τ : Type} → Interest τ → StateM (Framer × τ) α} {start : Framer}
    (hrun : ∀ {τ : Type} (asked : Interest τ) (memory : τ),
      (other asked).run (start, memory) = (action asked).run (framer, memory)) :
    Makes interest other start memory value framer₁ memory₁ calls where
  run := by rw [hrun, h.run]
  recorded before := by rw [hrun, h.recorded]

end Makes

theorem run_judge_recorded {unit : NalUnit} {complete : Bool} {verdict : Verdict}
    (h : (interest.judge unit complete).run memory = (verdict, memory₁))
    (before : List Judgement) :
    (interest.recorded.judge unit complete).run (memory, before) =
      (verdict, memory₁, before ++ [{ bytes := unit.bytes, complete, verdict }]) := by
  show (let (verdict, memory) := Id.run ((interest.judge unit complete).run memory)
    (Pure.pure (verdict, memory, before ++ [Judgement.mk unit.bytes complete verdict]) :
      Id (Verdict × σ × List Judgement))) = _
  rw [h]
  rfl

theorem makes_wants_of_keep {unit : NalUnit} {complete : Bool} (framer : Framer)
    (h : (interest.judge unit complete).run memory = (.keep, memory₁)) :
    Makes interest (fun other => wants other unit complete) framer memory true framer memory₁
      [{ bytes := unit.bytes, complete, verdict := .keep }] where
  run := run_wants_of_keep h
  recorded before := run_wants_of_keep (run_judge_recorded h before)

theorem makes_wants_of_ignore {unit : NalUnit} {complete : Bool} (framer : Framer)
    (h : (interest.judge unit complete).run memory = (.ignore, memory₁)) :
    Makes interest (fun other => wants other unit complete) framer memory false
      (framer.ignoring 1) memory₁
      [{ bytes := unit.bytes, complete, verdict := .ignore }] where
  run := run_wants_of_ignore h
  recorded before := run_wants_of_ignore (run_judge_recorded h before)

/-- Units that are complete are each called on once. -/
theorem exists_makes_select (interest : Interest σ) (units : List NalUnit) (framer : Framer)
    (memory : σ) :
    ∃ kept ignored memory₁ calls, Makes interest (fun other => select other units) framer memory
        kept (framer.ignoring ignored) memory₁ calls ∧
      Concluded (units.map NalUnit.bytes) calls (kept.map NalUnit.bytes) := by
  induction units generalizing framer memory with
  | nil => exact ⟨[], 0, memory, [], .pure [] framer memory, .nil⟩
  | cons unit units ih =>
    rcases hjudged : (interest.judge unit true).run memory with ⟨verdict, middle⟩
    cases verdict with
    | keep =>
      obtain ⟨kept, ignored, memory₁, calls, hmakes, hconcluded⟩ := ih framer middle
      refine ⟨unit :: kept, ignored, memory₁, _, ?_, .keep hconcluded⟩
      exact (makes_wants_of_keep framer hjudged).bind _ (hmakes.map fun others => unit :: others)
    | ignore =>
      obtain ⟨kept, ignored, memory₁, calls, hmakes, hconcluded⟩ := ih (framer.ignoring 1) middle
      rw [ignoring_ignoring] at hmakes
      refine ⟨kept, 1 + ignored, memory₁, _, ?_, .ignore hconcluded⟩
      exact (makes_wants_of_ignore framer hjudged).bind _ (hmakes.map fun others => others)

/-! ## The unit in progress, chunks, and the end -/

theorem makes_reviewOpen_of_none (interest : Interest σ) (memory : σ)
    (hopen : framer.openUnit? = none) :
    Makes interest (fun other => reviewOpen other) framer memory () framer memory [] := by
  refine (Makes.pure () framer memory).of_run fun asked memory => ?_
  simp only [reviewOpen, StateT.run_bind, StateT.run_get, pure_bind, hopen]

theorem makes_reviewOpen_of_keep {unit : NalUnit} (hopen : framer.openUnit? = some unit)
    (h : (interest.judge unit false).run memory = (.keep, memory₁)) :
    Makes interest (fun other => reviewOpen other) framer memory () framer memory₁
      [{ bytes := unit.bytes, complete := false, verdict := .keep }] where
  run := by
    simp only [reviewOpen, StateT.run_bind, StateT.run_get, pure_bind, hopen,
      run_wants_of_keep h]
    rfl
  recorded before := by
    simp only [reviewOpen, StateT.run_bind, StateT.run_get, pure_bind, hopen,
      run_wants_of_keep (run_judge_recorded h before)]
    rfl

/-- The rest of a unit that is ignored while it is open is passed over. -/
theorem makes_reviewOpen_of_ignore {unit : NalUnit} (hopen : framer.openUnit? = some unit)
    (h : (interest.judge unit false).run memory = (.ignore, memory₁)) :
    Makes interest (fun other => reviewOpen other) framer memory () (framer.ignoring 1).passOver
      memory₁ [{ bytes := unit.bytes, complete := false, verdict := .ignore }] where
  run := by
    simp only [reviewOpen, StateT.run_bind, StateT.run_get, pure_bind, hopen,
      run_wants_of_ignore h]
    rfl
  recorded before := by
    simp only [reviewOpen, StateT.run_bind, StateT.run_get, pure_bind, hopen,
      run_wants_of_ignore (run_judge_recorded h before)]
    rfl

theorem makes_push {chunk : Bytes} (hchunk : chunk ≠ []) {kept : List NalUnit}
    (hselect : Makes interest (fun other => select other (framer.receive chunk).1)
      (framer.receive chunk).2 memory kept framer₁ memory₁ calls₁)
    (hreview : Makes interest (fun other => reviewOpen other) framer₁ memory₁ () framer₂ memory₂
      calls₂) :
    Makes interest (fun other => push other chunk) framer memory kept framer₂ memory₂
      (calls₁ ++ calls₂) := by
  have hempty : ¬chunk.isEmpty = true := by simpa using hchunk
  refine (hselect.bind (fun other kept => do reviewOpen other; return kept)
    (hreview.map fun _ => kept)).of_run fun asked memory => ?_
  simp only [push, if_neg hempty, StateT.run_bind, StateT.run_get, StateT.run_set, pure_bind]

theorem makes_push_nil (interest : Interest σ) (framer : Framer) (memory : σ) :
    Makes interest (fun other => push other []) framer memory [] framer memory [] :=
  .pure [] framer memory

theorem makes_pushes_nil (interest : Interest σ) (framer : Framer) (memory : σ) :
    Makes interest (fun other => List.mapM (push other) []) framer memory [] framer memory [] :=
  .pure [] framer memory

theorem makes_pushes_cons {chunk : Bytes} {chunks : List Bytes} {kept : List NalUnit}
    {others : List (List NalUnit)}
    (h : Makes interest (fun other => push other chunk) framer memory kept framer₁ memory₁ calls₁)
    (hothers : Makes interest (fun other => chunks.mapM (push other)) framer₁ memory₁ others framer₂
      memory₂ calls₂) :
    Makes interest (fun other => (chunk :: chunks).mapM (push other)) framer memory
      (kept :: others) framer₂ memory₂ (calls₁ ++ calls₂) := by
  refine (h.bind (fun other kept => do return kept :: (← chunks.mapM (push other)))
    (hothers.map fun others => kept :: others)).of_run fun asked memory => ?_
  rw [List.mapM_cons]

theorem makes_pushes_append {front back : List Bytes} {kept others : List (List NalUnit)}
    (h : Makes interest (fun other => front.mapM (push other)) framer memory kept framer₁ memory₁
      calls₁)
    (hothers : Makes interest (fun other => back.mapM (push other)) framer₁ memory₁ others framer₂
      memory₂ calls₂) :
    Makes interest (fun other => (front ++ back).mapM (push other)) framer memory
      (kept ++ others) framer₂ memory₂ (calls₁ ++ calls₂) := by
  refine (h.bind (fun other kept => do return kept ++ (← back.mapM (push other)))
    (hothers.map fun others => kept ++ others)).of_run fun asked memory => ?_
  rw [List.mapM_append]

/-- The framer after the end of a stream, the last unit judged. -/
def ended (framer : Framer) : Framer :=
  (if framer.phase = .seeking then framer.discard framer.pending else framer).reset

theorem makes_flush {last : List NalUnit}
    (hselect : Makes interest (fun other => select other framer.openUnit?.toList) framer memory
      last framer₁ memory₁ calls) :
    Makes interest (fun other => flush other) framer memory last framer₁.ended memory₁ calls where
  run := by
    simp only [flush, StateT.run_bind, StateT.run_get, pure_bind, hselect.run]
    rfl
  recorded before := by
    simp only [flush, StateT.run_bind, StateT.run_get, pure_bind, hselect.recorded]
    rfl

theorem makes_pushAll {chunks : List Bytes} {kept : List (List NalUnit)} {last : List NalUnit}
    (h : Makes interest (fun other => chunks.mapM (push other)) framer memory kept framer₁ memory₁
      calls₁)
    (hlast : Makes interest (fun other => flush other) framer₁ memory₁ last framer₂ memory₂
      calls₂) :
    Makes interest (fun other => pushAll other chunks) framer memory (kept.flatten ++ last) framer₂
      memory₂ (calls₁ ++ calls₂) :=
  h.bind (fun other kept => do return kept.flatten ++ (← flush other))
    (hlast.map fun last => kept.flatten ++ last)

/-! ## The calls of a run -/

/-- The calls that a new framer makes on chunks, without the end of the stream. -/
def callsOfChunks (interest : Interest σ) (memory : σ) (chunks : List Bytes) : List Judgement :=
  let (_, _, _, calls) := (chunks.mapM (push interest.recorded)).run ({}, memory, [])
  calls

/-- The calls that a new framer makes on a whole stream in chunks. -/
def callsOf (interest : Interest σ) (memory : σ) (chunks : List Bytes) : List Judgement :=
  let (_, _, _, calls) := (pushAll interest.recorded chunks).run ({}, memory, [])
  calls

theorem callsOfChunks_eq {chunks : List Bytes} {kept : List (List NalUnit)}
    (h : Makes interest (fun other => chunks.mapM (push other)) {} memory kept framer₁ memory₁
      calls) : callsOfChunks interest memory chunks = calls := by
  unfold callsOfChunks
  rw [h.recorded]
  rfl

theorem callsOf_eq {chunks : List Bytes} {units : List NalUnit}
    (h : Makes interest (fun other => pushAll other chunks) {} memory units framer₁ memory₁ calls) :
    callsOf interest memory chunks = calls := by
  unfold callsOf
  rw [h.recorded]
  rfl

/-- Recording the calls of an interest changes nothing else. -/
theorem frameWith_of_makes {chunks : List Bytes} {units : List NalUnit}
    (h : Makes interest (fun other => pushAll other chunks) {} memory units framer₁ memory₁ calls) :
    frameWith interest memory {} chunks = (units, framer₁) ∧
      frameWith interest.recorded (memory, []) {} chunks = (units, framer₁) := by
  unfold frameWith
  rw [h.run, h.recorded]
  exact ⟨rfl, rfl⟩

end Framer

end H264.Framing
