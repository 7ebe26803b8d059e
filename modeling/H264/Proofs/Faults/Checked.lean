import H264.Bits.Reader
import H264.Proofs.Runs
import Mathlib.Algebra.Order.Ring.Nat

/-!
# Readers that check what they read

`Read.Yields action post` says that the action, wherever it starts, gives a value with `post` or
fails with an error that a stream can cause; `Read.Checked` leaves the value open. The rules follow
the ways in which actions are put together, so that a structure is checked once each of its fields
is. The one thing to show of a field is that its width is at most `Read.maxWidth`: the widths of
some fields are numbers read before, and `post` carries their bounds there.
-/

namespace H264

variable {α β : Type}

/-! ## Outcomes -/

theorem ok_bind (value : α) (next : α → Except Error β) :
    ((.ok value : Except Error α) >>= next) = next value :=
  rfl

theorem exists_of_bind_eq_ok {outcome : Except Error α} {next : α → Except Error β} {result : β}
    (h : outcome >>= next = .ok result) : ∃ value, outcome = .ok value ∧ next value = .ok result := by
  cases outcome with
  | error error => cases h
  | ok value => exact ⟨value, rfl, h⟩

/-- If the outcome is an error, a stream can cause it. -/
def CheckedOutcome (outcome : Except Error α) : Prop :=
  ∀ error, outcome = .error error → error.isBitstream = true

namespace CheckedOutcome

instance decidable (outcome : Except Error α) : Decidable (CheckedOutcome outcome) :=
  match outcome with
  | .ok _ => isTrue nofun
  | .error error => decidable_of_iff (error.isBitstream = true)
      ⟨fun h _ herror => Except.error.inj herror ▸ h, fun h => h error rfl⟩

theorem ok (value : α) : CheckedOutcome (.ok value) := by
  rintro _ ⟨⟩

theorem fail {error : Error} (h : error.isBitstream = true) :
    CheckedOutcome (.error error : Except Error α) := by
  rintro _ ⟨⟩
  exact h

theorem bind {outcome : Except Error α} {next : α → Except Error β} (h : CheckedOutcome outcome)
    (hnext : ∀ value, outcome = .ok value → CheckedOutcome (next value)) :
    CheckedOutcome (outcome >>= next) := by
  intro error herror
  cases outcome with
  | ok value => exact hnext value rfl error herror
  | error stop =>
    cases herror
    exact h _ rfl

theorem map {outcome : Except Error α} {f : α → β} (h : CheckedOutcome outcome) :
    CheckedOutcome (f <$> outcome) := by
  cases outcome with
  | ok value => exact .ok (f value)
  | error error => exact .fail (h error rfl)

theorem ite {condition : Prop} [Decidable condition] {yes no : Except Error α}
    (hyes : CheckedOutcome yes) (hno : CheckedOutcome no) :
    CheckedOutcome (if condition then yes else no) := by
  by_cases h : condition
  · rw [if_pos h]
    exact hyes
  · rw [if_neg h]
    exact hno

/-- A condition that ends a check, before the rest of it. -/
theorem guard {condition : Prop} [Decidable condition] {error : Error}
    {rest : PUnit → Except Error α} (herror : error.isBitstream = true)
    (hrest : CheckedOutcome (rest ⟨⟩)) :
    CheckedOutcome (if condition then throw error >>= rest else rest ⟨⟩) :=
  .ite (.fail herror) hrest

end CheckedOutcome

namespace Read

/-! ## Actions -/

/-- From wherever it starts, the action gives a value with `post` or an error that a stream can
cause. -/
def Yields (action : Read α) (post : α → Prop) : Prop :=
  ∀ r, match action r with
    | .ok value _ => post value
    | .error error _ => error.isBitstream = true

/-- The action fails only with errors that a stream can cause. -/
def Checked (action : Read α) : Prop :=
  Yields action fun _ => True

/-! ## Putting actions together -/

namespace Yields

theorem pure {value : α} {post : α → Prop} (h : post value) :
    Yields (Pure.pure value) post := by
  intro r
  exact h

theorem fail {error : Error} (h : error.isBitstream = true) (post : α → Prop) :
    Yields (throw error : Read α) post := by
  intro r
  exact h

theorem bind {action : Read α} {next : α → Read β} {mid : α → Prop} {post : β → Prop}
    (h : Yields action mid) (hnext : ∀ value, mid value → Yields (next value) post) :
    Yields (action >>= next) post := by
  intro r
  have hr := h r
  cases hrun : action r with
  | ok value r' =>
    rw [hrun] at hr
    rw [bind_of_ok hrun]
    exact hnext value hr r'
  | error error r' =>
    rw [hrun] at hr
    rw [bind_of_error hrun]
    exact hr

theorem mono {action : Read α} {post weaker : α → Prop} (h : Yields action post)
    (himp : ∀ value, post value → weaker value) : Yields action weaker := by
  intro r
  have hr := h r
  cases hrun : action r with
  | ok value r' =>
    rw [hrun] at hr
    exact himp value hr
  | error error r' =>
    rw [hrun] at hr
    exact hr

theorem checked {action : Read α} {post : α → Prop} (h : Yields action post) : Checked action :=
  h.mono fun _ _ => trivial

theorem map {action : Read α} {f : α → β} {post : β → Prop}
    (h : Yields action fun value => post (f value)) : Yields (f <$> action) post := by
  rw [map_eq_pure_bind]
  exact h.bind fun _ hvalue => .pure hvalue

theorem ite {condition : Prop} [Decidable condition] {yes no : Read α} {post : α → Prop}
    (hyes : condition → Yields yes post) (hno : ¬condition → Yields no post) :
    Yields (if condition then yes else no) post := by
  by_cases h : condition
  · rw [if_pos h]
    exact hyes h
  · rw [if_neg h]
    exact hno h

/-- A condition that ends an action, before the rest of it. -/
theorem guard {condition : Prop} [Decidable condition] {error : Error} {rest : PUnit → Read α}
    {post : α → Prop} (herror : error.isBitstream = true)
    (hrest : ¬condition → Yields (rest ⟨⟩) post) :
    Yields (if condition then throw error >>= rest else rest ⟨⟩) post :=
  .ite (fun _ => .bind (.fail herror fun _ => False) fun _ h => h.elim) hrest

/-- A condition that the rest of an action needs. -/
theorem require {condition : Prop} [Decidable condition] {error : Error} {rest : PUnit → Read α}
    {post : α → Prop} (herror : error.isBitstream = true)
    (hrest : condition → Yields (rest ⟨⟩) post) :
    Yields (if condition then rest ⟨⟩ else throw error >>= rest) post :=
  .ite hrest fun _ => .bind (.fail herror fun _ => False) fun _ h => h.elim

/-- A field whose form depends on a condition, before the rest of an action. -/
theorem branch {condition : Prop} [Decidable condition] {yes no : Read α} {rest : α → Read β}
    {mid : α → Prop} {post : β → Prop} (hyes : Yields yes mid) (hno : Yields no mid)
    (hrest : ∀ value, mid value → Yields (rest value) post) :
    Yields (if condition then yes >>= rest else no >>= rest) post :=
  .ite (fun _ => hyes.bind hrest) fun _ => hno.bind hrest

end Yields

namespace Checked

theorem pure (value : α) : Checked (Pure.pure value) :=
  Yields.pure trivial

theorem fail {error : Error} (h : error.isBitstream = true) : Checked (throw error : Read α) :=
  Yields.fail h _

theorem bind {action : Read α} {next : α → Read β} (h : Checked action)
    (hnext : ∀ value, Checked (next value)) : Checked (action >>= next) :=
  Yields.bind h fun value _ => hnext value

theorem map {action : Read α} {f : α → β} (h : Checked action) : Checked (f <$> action) :=
  Yields.map h

theorem ite {condition : Prop} [Decidable condition] {yes no : Read α} (hyes : Checked yes)
    (hno : Checked no) : Checked (if condition then yes else no) :=
  Yields.ite (fun _ => hyes) fun _ => hno

/-- A field with a bound that the rest of an action relies on. -/
theorem bindWith {action : Read α} {next : α → Read β} {mid : α → Prop} (h : Yields action mid)
    (hnext : ∀ value, mid value → Checked (next value)) : Checked (action >>= next) :=
  Yields.bind h hnext

theorem guard {condition : Prop} [Decidable condition] {error : Error} {rest : PUnit → Read α}
    (herror : error.isBitstream = true) (hrest : Checked (rest ⟨⟩)) :
    Checked (if condition then throw error >>= rest else rest ⟨⟩) :=
  Yields.guard herror fun _ => hrest

theorem require {condition : Prop} [Decidable condition] {error : Error} {rest : PUnit → Read α}
    (herror : error.isBitstream = true) (hrest : Checked (rest ⟨⟩)) :
    Checked (if condition then rest ⟨⟩ else throw error >>= rest) :=
  Yields.require herror fun _ => hrest

theorem branch {condition : Prop} [Decidable condition] {yes no : Read α} {rest : α → Read β}
    (hyes : Checked yes) (hno : Checked no) (hrest : ∀ value, Checked (rest value)) :
    Checked (if condition then yes >>= rest else no >>= rest) :=
  Yields.branch hyes hno fun value _ => hrest value

/-- A step that is taken only under a condition, before the rest of an action. -/
theorem skippable {condition : Prop} [Decidable condition] {step : Read PUnit}
    {rest : PUnit → Read α} (hstep : Checked step) (hrest : ∀ done, Checked (rest done)) :
    Checked (if condition then step >>= rest else rest ⟨⟩) :=
  .ite (.bind hstep hrest) (hrest ⟨⟩)

end Checked

/-! ## The reader -/

theorem checked_get : Checked (get : Read Reader) := by
  intro r
  trivial

theorem checked_set (r : Reader) : Checked (set r : Read PUnit) := by
  intro _
  trivial

theorem checked_modify (f : Reader → Reader) : Checked (modify f : Read PUnit) := by
  intro _
  trivial

theorem yields_ofExcept {outcome : Except Error α} {post : α → Prop}
    (h : CheckedOutcome outcome) (hok : ∀ value, outcome = .ok value → post value) :
    Yields (ofExcept outcome) post := by
  cases outcome with
  | ok value => exact .pure (hok value rfl)
  | error error => exact .fail (h error rfl) _

theorem checked_ofExcept {outcome : Except Error α} (h : CheckedOutcome outcome) :
    Checked (ofExcept outcome) :=
  yields_ofExcept h fun _ _ => trivial

/-! ## Fields -/

theorem peek_lt (r : Reader) (width : Nat) : r.peek width < 2 ^ width := by
  unfold Reader.peek
  rw [Nat.one_shiftLeft]
  exact Nat.mod_lt _ (Nat.two_pow_pos width)

theorem yields_bits {width : Nat} (h : width ≤ maxWidth) (name : String) :
    Yields (bits width name) fun value => value < 2 ^ width := by
  unfold bits
  rw [if_neg (Nat.not_lt.mpr h)]
  refine .bind checked_get fun r _ => .guard rfl fun _ => .bind (checked_set _) fun _ _ => ?_
  exact .pure (peek_lt r width)

theorem bits_of_wide {width : Nat} (h : maxWidth < width) (name : String) :
    bits width name = throw (.misuse (.readWidth width)) := by
  unfold bits
  rw [if_pos h]
  rfl

theorem checked_bits {width : Nat} (h : width ≤ maxWidth) (name : String) :
    Checked (bits width name) :=
  (yields_bits h name).checked

theorem checked_u8 (name : String) : Checked (u8 name) :=
  checked_bits (by decide) name

theorem checked_flag (name : String) : Checked (flag name) := by
  unfold flag
  exact .bind (checked_bits (by decide) name) fun value => .pure _

theorem checked_skip (count : Nat) (name : String) : Checked (skip count name) := by
  unfold skip
  exact .bind checked_get fun r => .guard rfl (checked_set _)

theorem yields_leadingZeros (name : String) (budget : Nat) :
    Yields (leadingZeros name budget) fun zeros => zeros < budget := by
  induction budget with
  | zero => exact .fail rfl _
  | succ budget ih =>
    unfold leadingZeros
    refine .bind (checked_flag name) fun one _ => .ite (fun _ => ?_) fun _ => ?_
    · exact .pure (Nat.succ_pos budget)
    · exact .bind ih fun zeros hzeros => .pure (Nat.succ_lt_succ hzeros)

theorem checked_ue (name : String) : Checked (ue name) := by
  unfold ue
  refine .bindWith (yields_leadingZeros name _) fun zeros hzeros => ?_
  -- a code begins with fewer zeros than the widest field has bits
  have hwidth : zeros ≤ maxWidth := Nat.le_of_lt hzeros
  exact .bind (checked_bits hwidth name) fun rest => .pure _

theorem checked_se (name : String) : Checked (se name) := by
  unfold se
  exact .bind (checked_ue name) fun number => .pure _

theorem yields_ueMax (name : String) (maximum : Int) :
    Yields (ueMax name maximum) fun value => (value : Int) ≤ maximum := by
  unfold ueMax
  refine .bind (checked_ue name) fun value _ => .guard rfl fun h => ?_
  exact .pure (Int.not_lt.mp h)

theorem checked_ueMax (name : String) (maximum : Int) : Checked (ueMax name maximum) :=
  (yields_ueMax name maximum).checked

theorem checked_seRange (name : String) (least greatest : Int) :
    Checked (seRange name least greatest) := by
  unfold seRange
  exact .bind (checked_se name) fun value => .require rfl (.pure value)

/-! ## Repetition and presence -/

theorem checked_times {item : Read α} (h : Checked item) (count : Nat) :
    Checked (times item count) := by
  induction count with
  | zero => exact .pure []
  | succ count ih => exact .bind h fun first => .bind ih fun rest => .pure (first :: rest)

theorem checked_optional {item : Read α} (h : Checked item) (present : Bool) :
    Checked (optional present item) :=
  .ite h.map (.pure none)

theorem checked_flagged {item : Read α} (h : Checked item) (name : String) :
    Checked (flagged name item) :=
  .bind (checked_flag name) fun present => checked_optional h present

/-! ## The end of a structure -/

theorem checked_more : Checked more :=
  .bind checked_get fun r => .pure r.hasMore

theorem checked_skipToTrailing : Checked skipToTrailing :=
  checked_modify _

theorem checked_finishRbsp : Checked finishRbsp := by
  unfold finishRbsp
  refine .bind checked_get fun r => .guard rfl ?_
  refine .bind (checked_flag _) fun stop => .require rfl ?_
  refine .bind checked_get fun r' => .guard rfl ?_
  exact checked_modify _

/-! ## Running -/

/-- A value that an action gives, wherever it is started. -/
def Gives (action : Read α) (value : α) : Prop :=
  ∃ before after, action before = .ok value after

theorem Yields.of_gives {action : Read α} {value : α} {post : α → Prop} (h : Yields action post)
    (hgives : Gives action value) : post value := by
  obtain ⟨before, after, hrun⟩ := hgives
  have hbefore := h before
  rw [hrun] at hbefore
  exact hbefore

theorem Gives.of_bind {action : Read α} {next : α → Read β} {result : β}
    (h : Gives (action >>= next) result) :
    ∃ value, Gives action value ∧ Gives (next value) result := by
  obtain ⟨before, after, hrun⟩ := h
  cases hfirst : action before with
  | ok value mid =>
    rw [bind_of_ok hfirst] at hrun
    exact ⟨value, ⟨before, mid, hfirst⟩, ⟨mid, after, hrun⟩⟩
  | error error mid =>
    rw [bind_of_error hfirst] at hrun
    cases hrun

/-- What follows an action matters only for the values that the action gives. -/
theorem bind_congr_of_gives {action : Read α} {next other : α → Read β}
    (h : ∀ value, Gives action value → next value = other value) :
    action >>= next = action >>= other := by
  funext r
  cases hrun : action r with
  | ok value after => rw [bind_of_ok hrun, bind_of_ok hrun, h value ⟨r, after, hrun⟩]
  | error error after => rw [bind_of_error hrun, bind_of_error hrun]

theorem value_of_ok {action : Read α} {value : α} {data : Bytes} {after : Reader}
    (h : action { data } = .ok value after) : Read.value action data = .ok value := by
  unfold Read.value
  rw [h]

theorem value_of_error {action : Read α} {error : Error} {data : Bytes} {after : Reader}
    (h : action { data } = .error error after) : Read.value action data = .error error := by
  unfold Read.value
  rw [h]

theorem exists_run_of_value {action : Read α} {value : α} {data : Bytes}
    (h : Read.value action data = .ok value) : ∃ after, action { data } = .ok value after := by
  cases hrun : action { data } with
  | ok result after =>
    rw [value_of_ok hrun] at h
    cases h
    exact ⟨after, rfl⟩
  | error error after =>
    rw [value_of_error hrun] at h
    cases h

theorem Gives.of_value {action : Read α} {value : α} {data : Bytes}
    (h : Read.value action data = .ok value) : Gives action value := by
  obtain ⟨after, hrun⟩ := exists_run_of_value h
  exact ⟨_, after, hrun⟩

theorem Checked.value {action : Read α} (h : Checked action) (data : Bytes) :
    CheckedOutcome (Read.value action data) := by
  have hstart := h { data }
  cases hrun : action { data } with
  | ok result after =>
    rw [value_of_ok hrun]
    exact .ok result
  | error error after =>
    rw [hrun] at hstart
    rw [value_of_error hrun]
    exact .fail hstart

/-- An action that succeeds, before one that fails wherever it starts. -/
theorem value_bind_throw {action : Read α} {next : α → Read β} {data : Bytes} {value : α}
    {error : Error} (h : Read.value action data = .ok value) (hnext : next value = throw error) :
    Read.value (action >>= next) data = .error error := by
  obtain ⟨after, hrun⟩ := exists_run_of_value h
  have hend : (action >>= next) { data } = .error error after := by
    rw [bind_of_ok hrun, hnext]
    rfl
  exact value_of_error hend

theorem Checked.value_bind {action : Read α} {next : α → Read β} {data : Bytes}
    (h : Checked action)
    (hnext : ∀ value, Read.value action data = .ok value → Checked (next value)) :
    CheckedOutcome (Read.value (action >>= next) data) := by
  have hstart := h { data }
  cases hrun : action { data } with
  | ok value after =>
    have hafter := hnext value (value_of_ok hrun) after
    have hboth := bind_of_ok hrun next
    cases hend : next value after with
    | ok result last =>
      rw [hend] at hboth
      rw [value_of_ok hboth]
      exact .ok result
    | error error last =>
      rw [hend] at hafter hboth
      rw [value_of_error hboth]
      exact .fail hafter
  | error error after =>
    rw [hrun] at hstart
    rw [value_of_error (bind_of_error hrun next)]
    exact .fail hstart

end Read

end H264
