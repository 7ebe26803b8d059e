import H264.Proofs.Bits.Accepted

/-!
# What an action looks at

An action is local (`Local`) if, where it succeeds, it has taken some bits off the front of what
remained, and takes the same bits to the same value wherever it finds them next. So it has looked at
nothing behind the place where it stopped. `Takes` says what was taken and `Reads` that it is taken
again; `Local.of_takes` puts the two together for a structure whose writings are known. The other
rules follow the ways in which actions are put together. Main statement: `Local.run_congr` says
that data which agree up to the place where an action stopped give the same value.
-/

namespace H264

/-- An action that succeeds has taken bits off the front of what remained, and takes them to the
same value wherever it finds them next. -/
def Local {α : Type} (action : Read α) : Prop :=
  ∀ r value after, action r = .ok value after → ∃ taken tail,
    r.rest = taken ++ tail ∧ after = r.advance taken.length ∧ Reads action taken value

namespace Local

variable {α β : Type}

/-! ## Putting actions together -/

theorem pure (value : α) : Local (Pure.pure value) := by
  rintro r _ _ ⟨⟩
  exact ⟨[], r.rest, rfl, r.advance_zero.symm, .pure value⟩

theorem bind {first : Read α} {next : α → Read β} (hfirst : Local first)
    (hnext : ∀ x, Local (next x)) : Local (first >>= next) := by
  intro r y after hrun
  cases hmid : first r with
  | error error r' =>
    rw [bind_of_error hmid] at hrun
    cases hrun
  | ok x r' =>
    rw [bind_of_ok hmid] at hrun
    obtain ⟨front, rest, hrest, rfl, hfront⟩ := hfirst r x r' hmid
    obtain ⟨back, tail, htail, rfl, hback⟩ := hnext x _ y after hrun
    rw [Reader.rest_advance, hrest, List.drop_left] at htail
    refine ⟨front ++ back, tail, ?_, ?_, hfront.bind hback⟩
    · rw [hrest, htail, List.append_assoc]
    · rw [Reader.advance_advance, List.length_append]

theorem map {action : Read α} (f : α → β) (h : Local action) : Local (f <$> action) := by
  rw [map_eq_pure_bind]
  exact h.bind fun _ => .pure _

theorem ite {condition : Prop} [Decidable condition] {yes no : Read α} (hyes : Local yes)
    (hno : Local no) : Local (if condition then yes else no) := by
  by_cases h : condition
  · rw [if_pos h]
    exact hyes
  · rw [if_neg h]
    exact hno

/-- A field whose form depends on a condition, before the rest of an action. -/
theorem branch {condition : Prop} [Decidable condition] {yes no : Read α} {rest : α → Read β}
    (hyes : Local yes) (hno : Local no) (hrest : ∀ value, Local (rest value)) :
    Local (if condition then yes >>= rest else no >>= rest) :=
  .ite (hyes.bind hrest) (hno.bind hrest)

/-! ## Structures with known writings -/

/-- What takes nothing but writings that are read back looks at nothing else. -/
theorem of_takes {action : Read α} {post : α → List Element → Prop} (htakes : Takes action post)
    (hreads : ∀ value elements, post value elements → ReadsBack action elements value) :
    Local action := by
  intro r value after hrun
  obtain ⟨elements, tail, hpost, hrest, hafter⟩ := htakes r value after hrun
  exact ⟨Element.bits elements, tail, hrest, hafter, (hreads value elements hpost).reads⟩

theorem of_accepts {action : Read α} {legal : α → Prop} {part : α → List Element}
    (haccepts : Accepts action legal part)
    (hreads : ∀ value, legal value → ReadsBack action (part value) value) : Local action :=
  .of_takes haccepts fun value _ ⟨hlegal, hpart⟩ => hpart ▸ hreads value hlegal

theorem bits {width : Nat} (h : width ≤ Read.maxWidth) (name : String) :
    Local (Read.bits width name) :=
  .of_accepts (.bits width name) fun _ hvalue => .bits name h hvalue

theorem u8 (name : String) : Local (Read.u8 name) :=
  .bits (by decide) name

theorem flag (name : String) : Local (Read.flag name) :=
  .of_accepts (.flag name) fun value _ => .flag name value

theorem ue (name : String) : Local (Read.ue name) :=
  .of_accepts (.ue name) fun _ hvalue => .ue name hvalue

theorem se (name : String) : Local (Read.se name) :=
  .of_accepts (.se name) fun _ hvalue => .se name hvalue

theorem ueMax (name : String) {maximum : Nat} (h : maximum ≤ Codeword.maxCodeNumber) :
    Local (Read.ueMax name maximum) :=
  .of_accepts (.ueMax name maximum) fun _ hvalue => .ueMax name hvalue h

theorem ofExcept (outcome : Except Error α) : Local (Read.ofExcept outcome) :=
  .of_accepts (.ofExcept outcome) fun _ hvalue => .ofExcept hvalue

/-! ## Repetition and presence -/

theorem times {item : Read α} (h : Local item) (count : Nat) : Local (Read.times item count) := by
  induction count with
  | zero => exact .pure []
  | succ count ih => exact h.bind fun first => ih.bind fun rest => .pure (first :: rest)

theorem optional {item : Read α} (h : Local item) (present : Bool) :
    Local (Read.optional present item) :=
  .ite (h.map some) (.pure none)

theorem flagged {item : Read α} (h : Local item) (name : String) :
    Local (Read.flagged name item) :=
  .bind (.flag name) fun present => h.optional present

/-! ## Data that agree -/

/-- **Data that agree up to the place where an action stopped** give the same value, and the action
stops there again. -/
theorem run_congr {action : Read α} (h : Local action) {data other : Bytes} {value : α}
    {after : Reader} (hrun : action { data } = .ok value after)
    (hagree : (Bytes.bits other).take after.pos = (Bytes.bits data).take after.pos) :
    action { data := other } = .ok value (.ofPos other after.pos) := by
  obtain ⟨taken, tail, hrest, rfl, hreads⟩ := h _ value after hrun
  have hbits : Bytes.bits data = taken ++ tail := hrest
  have hpos : (Reader.advance { data } taken.length).pos = taken.length :=
    (Reader.pos_advance { data } taken.length).trans (Nat.zero_add _)
  rw [hpos, hbits, List.take_left] at hagree
  have hother : Reader.rest { data := other } =
      taken ++ (Bytes.bits other).drop taken.length := by
    show (Bytes.bits other).drop 0 = _
    rw [List.drop_zero]
    conv => lhs; rw [← List.take_append_drop taken.length (Bytes.bits other), hagree]
  rw [hpos, ← Nat.zero_add taken.length]
  exact hreads _ _ hother

end Local

end H264
