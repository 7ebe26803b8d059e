import H264.Bits.Element
import H264.Proofs.Bits.ReadBack

/-!
# What an action accepts

`Takes action post` says that an action which succeeds has taken the writing of some elements, off
the front of what remained, and that `post` holds of its value and of these elements. `Accepts`
is the case in which the elements are those of the value: the action succeeds on nothing but the
writing of a legal value. The rules follow the ways in which actions are put together, as those of
`ReadsBack` do, so that nothing of a structure is passed over once nothing of its fields is.
-/

namespace H264

/-! ## The relations -/

/-- An action that succeeds has taken the writing of elements of which `post` holds. -/
def Takes {α : Type} (action : Read α) (post : α → List Element → Prop) : Prop :=
  ∀ r value after, action r = .ok value after → ∃ elements tail, post value elements ∧
    r.rest = Element.bits elements ++ tail ∧ after = r.advance (Element.bits elements).length

/-- An action that succeeds has taken the writing of a legal value and gives this value. -/
abbrev Accepts {α : Type} (action : Read α) (legal : α → Prop) (part : α → List Element) : Prop :=
  Takes action fun value elements => legal value ∧ elements = part value

/-! ## Bits as elements -/

theorem Codeword.ue_of_zeros {zeros : Nat} {bits : List Bool} (h : bits.length = zeros) :
    List.replicate zeros false ++ true :: bits = ue (2 ^ zeros - 1 + Bits.toNat bits) := by
  have hlt : Bits.toNat bits < 2 ^ zeros := h ▸ Bits.toNat_lt bits
  have hpos : 0 < 2 ^ zeros := Nat.two_pow_pos zeros
  have hsucc : 2 ^ zeros - 1 + Bits.toNat bits + 1 = 2 ^ zeros + Bits.toNat bits := by omega
  have hlog : Nat.log2 (2 ^ zeros + Bits.toNat bits) = zeros := by
    refine (Nat.log2_eq_iff (by omega)).mpr ⟨by omega, ?_⟩
    rw [Nat.pow_succ]
    omega
  rw [ue_eq, hsucc, hlog, Nat.add_sub_cancel_left, ← h, Bits.ofNat_toNat]

namespace Takes

variable {α β : Type}

/-! ## Putting actions together -/

theorem pure {value : α} {post : α → List Element → Prop} (h : post value []) :
    Takes (Pure.pure value) post := by
  rintro r _ _ ⟨⟩
  exact ⟨[], r.rest, h, rfl, r.advance_zero.symm⟩

theorem fail (error : Error) (post : α → List Element → Prop) :
    Takes (throw error : Read α) post := by
  rintro r _ _ ⟨⟩

theorem mono {action : Read α} {post weaker : α → List Element → Prop} (h : Takes action post)
    (himp : ∀ value elements, post value elements → weaker value elements) :
    Takes action weaker := by
  intro r value after hrun
  obtain ⟨elements, tail, hpost, hrest⟩ := h r value after hrun
  exact ⟨elements, tail, himp value elements hpost, hrest⟩

/-- Other elements with the same writing may stand for those that were taken. -/
theorem recode {action : Read α} {post other : α → List Element → Prop} (h : Takes action post)
    (himp : ∀ value elements, post value elements →
      ∃ others, other value others ∧ Element.bits others = Element.bits elements) :
    Takes action other := by
  intro r value after hrun
  obtain ⟨elements, tail, hpost, hrest, hafter⟩ := h r value after hrun
  obtain ⟨others, hother, hbits⟩ := himp value elements hpost
  exact ⟨others, tail, hother, hbits ▸ hrest, hbits ▸ hafter⟩

theorem bind {first : Read α} {next : α → Read β} {mid : α → List Element → Prop}
    {post : β → List Element → Prop} (hfirst : Takes first mid)
    (hnext : ∀ x front, mid x front → Takes (next x) fun y back => post y (front ++ back)) :
    Takes (first >>= next) post := by
  intro r y after hrun
  cases hmid : first r with
  | error error r' =>
    rw [bind_of_error hmid] at hrun
    cases hrun
  | ok x r' =>
    rw [bind_of_ok hmid] at hrun
    obtain ⟨front, rest, hfront, hrest, rfl⟩ := hfirst r x r' hmid
    obtain ⟨back, tail, hback, htail, rfl⟩ := hnext x front hfront _ y after hrun
    rw [Reader.rest_advance, hrest, List.drop_left] at htail
    refine ⟨front ++ back, tail, hback, ?_, ?_⟩
    · rw [hrest, htail, Element.bits_append, List.append_assoc]
    · rw [Reader.advance_advance, Element.bits_append, List.length_append]

/-- A part that is accepted, before the rest of an action. -/
theorem part {first : Read α} {next : α → Read β} {legal : α → Prop} {part : α → List Element}
    {post : β → List Element → Prop} (hfirst : Accepts first legal part)
    (hnext : ∀ x, legal x → Takes (next x) fun y back => post y (part x ++ back)) :
    Takes (first >>= next) post :=
  hfirst.bind fun x _ ⟨hx, hfront⟩ => hfront ▸ hnext x hx

/-- A step that takes nothing, before the rest of an action. -/
theorem step {first : Read α} {next : α → Read β} {legal : α → Prop}
    {post : β → List Element → Prop} (hfirst : Accepts first legal fun _ => [])
    (hnext : ∀ x, legal x → Takes (next x) post) : Takes (first >>= next) post :=
  .part hfirst hnext

theorem map {action : Read α} {f : α → β} {post : β → List Element → Prop}
    (h : Takes action fun value => post (f value)) : Takes (f <$> action) post := by
  rw [map_eq_pure_bind]
  exact h.bind fun x front hx => .pure (by rwa [List.append_nil])

theorem ite {condition : Prop} [Decidable condition] {yes no : Read α}
    {post : α → List Element → Prop} (hyes : condition → Takes yes post)
    (hno : ¬condition → Takes no post) : Takes (if condition then yes else no) post := by
  by_cases h : condition
  · rw [if_pos h]
    exact hyes h
  · rw [if_neg h]
    exact hno h

/-- A condition that ends an action, before the rest of it. -/
theorem guard {condition : Prop} [Decidable condition] {error : Error} {rest : PUnit → Read α}
    {post : α → List Element → Prop} (hrest : ¬condition → Takes (rest ⟨⟩) post) :
    Takes (if condition then throw error >>= rest else rest ⟨⟩) post :=
  .ite (fun _ => .bind (.fail error fun _ _ => False) fun _ _ h => h.elim) hrest

/-- A condition that the rest of an action needs. -/
theorem require {condition : Prop} [Decidable condition] {error : Error} {rest : PUnit → Read α}
    {post : α → List Element → Prop} (hrest : condition → Takes (rest ⟨⟩) post) :
    Takes (if condition then rest ⟨⟩ else throw error >>= rest) post :=
  .ite hrest fun _ => .bind (.fail error fun _ _ => False) fun _ _ h => h.elim

/-- A field whose form depends on a condition, before the rest of an action. -/
theorem branch {condition : Prop} [Decidable condition] {yes no : Read α} {rest : α → Read β}
    {legal : α → Prop} {part : α → List Element} {post : β → List Element → Prop}
    (hfield : Accepts (if condition then yes else no) legal part)
    (hrest : ∀ x, legal x → Takes (rest x) fun y back => post y (part x ++ back)) :
    Takes (if condition then yes >>= rest else no >>= rest) post := by
  have hboth := Takes.part hfield hrest
  by_cases h : condition
  · rw [if_pos h] at hboth ⊢
    exact hboth
  · rw [if_neg h] at hboth ⊢
    exact hboth

/-! ## Presence -/

/-- What is taken where a part may be absent: elements of the part, or none. -/
def OfSent (mid : α → List Element → Prop) : Option α → List Element → Prop
  | none, elements => elements = []
  | some x, elements => mid x elements

theorem optional {item : Read α} {mid : α → List Element → Prop} (h : Takes item mid)
    (present : Bool) : Takes (Read.optional present item) fun value elements =>
      value.isSome = present ∧ OfSent mid value elements := by
  cases present with
  | false => exact .pure ⟨rfl, rfl⟩
  | true => exact .map (h.mono fun x elements hx => ⟨rfl, hx⟩)

end Takes

/-! ## Elements -/

namespace Accepts

variable {α : Type}

theorem ofExcept (outcome : Except Error α) :
    Accepts (Read.ofExcept outcome) (fun value => outcome = .ok value) fun _ => [] := by
  cases outcome with
  | ok value => exact .pure ⟨rfl, rfl⟩
  | error error => exact .fail error _

theorem more : Accepts Read.more (fun _ => True) fun _ => [] := by
  rintro r _ _ ⟨⟩
  exact ⟨[], r.rest, ⟨trivial, rfl⟩, rfl, r.advance_zero.symm⟩

theorem bits (width : Nat) (name : String) :
    Accepts (Read.bits width name) (· < 2 ^ width) fun value => [.u width value] := by
  intro r value after hrun
  by_cases hwidth : Read.maxWidth < width
  · unfold Read.bits at hrun
    rw [if_pos hwidth] at hrun
    cases hrun
  · by_cases hlen : width ≤ r.bitsLeft
    · rw [Read.bits_eq_ok r name (Nat.not_lt.mp hwidth) hlen] at hrun
      cases hrun
      have htake : (r.rest.take width).length = width := by
        rw [List.length_take, Reader.length_rest]
        omega
      have hbits : Element.bits [.u width (Bits.toNat (r.rest.take width))] =
          r.rest.take width := by
        have hback := Bits.ofNat_toNat (r.rest.take width)
        rw [htake] at hback
        rw [Element.bits_cons, Element.codeword_u, hback, Element.bits_nil, List.append_nil]
      have hlt := Bits.toNat_lt (r.rest.take width)
      rw [htake] at hlt
      refine ⟨_, r.rest.drop width, ⟨hlt, rfl⟩, ?_, ?_⟩
      · rw [hbits, List.take_append_drop]
      · rw [hbits, htake]
    · rw [Read.bits_eq_error r name (Nat.not_lt.mp hwidth) (Nat.not_le.mp hlen)] at hrun
      cases hrun

theorem u8 (name : String) : Accepts (Read.u8 name) (· < 256) fun value => [.u 8 value] :=
  bits 8 name

theorem flag (name : String) :
    Accepts (Read.flag name) (fun _ => True) fun value => [.flag value] := by
  unfold Read.flag
  refine .part (bits 1 name) fun value hvalue => .pure ⟨trivial, ?_⟩
  have hbit : value = 0 ∨ value = 1 := by omega
  rcases hbit with rfl | rfl
  · rfl
  · rfl

/-- The zeros before a one bit, and this one bit. -/
theorem takes_leadingZeros (name : String) (budget : Nat) :
    Takes (Read.leadingZeros name budget) fun zeros elements =>
      zeros < budget ∧ Element.bits elements = List.replicate zeros false ++ [true] := by
  induction budget with
  | zero => exact .fail _ _
  | succ budget ih =>
    unfold Read.leadingZeros
    refine .part (flag name) fun one _ => .ite (fun hone => .pure ?_) fun hone => ?_
    · rw [hone]
      exact ⟨Nat.succ_pos budget, rfl⟩
    · refine ih.bind fun zeros front ⟨hzeros, hfront⟩ => .pure ⟨Nat.succ_lt_succ hzeros, ?_⟩
      rw [Bool.eq_false_iff.mpr hone, List.append_nil]
      exact congrArg (false :: ·) hfront

theorem ue (name : String) :
    Accepts (Read.ue name) (· ≤ Codeword.maxCodeNumber) fun value => [.ue value] := by
  have hparts : Takes (Read.ue name) fun value elements =>
      value ≤ Codeword.maxCodeNumber ∧ Element.bits elements = Codeword.ue value := by
    refine (takes_leadingZeros name _).bind fun zeros front ⟨hzeros, hfront⟩ => ?_
    refine .part (bits zeros name) fun low hlow => .pure ⟨?_, ?_⟩
    · -- the budget of zeros bounds the number
      have hpow : 2 ^ zeros ≤ 2 ^ Codeword.maxLeadingZeros :=
        Nat.pow_le_pow_right (by decide) (Nat.le_of_lt_succ hzeros)
      have hmost : Codeword.maxCodeNumber = 2 * 2 ^ Codeword.maxLeadingZeros - 2 := rfl
      rw [Nat.one_shiftLeft]
      omega
    · have hlength : (Bits.ofNat zeros low).length = zeros := Bits.length_ofNat zeros low
      have hcode := Codeword.ue_of_zeros hlength
      rw [Bits.toNat_ofNat hlow] at hcode
      simp [hfront, Nat.one_shiftLeft, ← hcode]
  refine hparts.recode fun value elements ⟨hvalue, hbits⟩ => ⟨_, ⟨hvalue, rfl⟩, ?_⟩
  simp [hbits]

theorem se (name : String) :
    Accepts (Read.se name)
      (fun value => -Codeword.maxSigned ≤ value ∧ value ≤ Codeword.maxSigned)
      fun value => [.se value] := by
  -- the signed code is read as the unsigned one of its number, which has the same bits
  have hnumber : Takes (Read.se name) fun value elements =>
      (-Codeword.maxSigned ≤ value ∧ value ≤ Codeword.maxSigned) ∧
        elements = [.ue (Codeword.numberOfSigned value)] := by
    refine .part (ue name) fun number hnumber => .pure ⟨Codeword.fits_se_iff.mp ?_, ?_⟩
    · show Codeword.numberOfSigned _ ≤ _
      rwa [Codeword.numberOfSigned_signedOfNumber]
    · rw [Codeword.numberOfSigned_signedOfNumber]
      rfl
  refine hnumber.recode ?_
  rintro value _ ⟨hvalue, rfl⟩
  exact ⟨_, ⟨hvalue, rfl⟩, rfl⟩

theorem ueMax (name : String) (maximum : Nat) :
    Accepts (Read.ueMax name maximum) (· ≤ maximum) fun value => [.ue value] := by
  unfold Read.ueMax
  refine .part (ue name) fun value _ => .guard fun h => .pure ⟨?_, rfl⟩
  exact Int.ofNat_le.mp (Int.not_lt.mp h)

theorem seRange (name : String) (least greatest : Int) :
    Accepts (Read.seRange name least greatest) (fun value => least ≤ value ∧ value ≤ greatest)
      fun value => [.se value] := by
  unfold Read.seRange
  exact .part (se name) fun value _ => .require fun h => .pure ⟨h, rfl⟩

/-! ## Repetition and presence -/

theorem times {item : Read α} {legal : α → Prop} {part : α → List Element}
    (h : Accepts item legal part) (count : Nat) :
    Accepts (Read.times item count)
      (fun values => values.length = count ∧ ∀ value ∈ values, legal value)
      fun values => values.flatMap part := by
  induction count with
  | zero => exact .pure ⟨⟨rfl, by simp⟩, rfl⟩
  | succ count ih =>
    refine .part h fun first hfirst => .part ih fun rest ⟨hcount, hrest⟩ => .pure ⟨⟨?_, ?_⟩, ?_⟩
    · rw [List.length_cons, hcount]
    · exact List.forall_mem_cons.mpr ⟨hfirst, hrest⟩
    · rw [List.append_nil]
      exact List.flatMap_cons.symm

theorem optional {item : Read α} {legal : α → Prop} {part : α → List Element}
    (h : Accepts item legal part) (present : Bool) :
    Accepts (Read.optional present item)
      (fun value => value.isSome = present ∧ ∀ x ∈ value, legal x) (Element.sent part) := by
  refine (Takes.optional h present).mono fun value elements ⟨hpresent, hsent⟩ => ?_
  cases value with
  | none => exact ⟨⟨hpresent, by simp⟩, hsent⟩
  | some x => exact ⟨⟨hpresent, by simpa using hsent.1⟩, hsent.2⟩

end Accepts

theorem Takes.flagged {α : Type} {item : Read α} {mid : α → List Element → Prop}
    (h : Takes item mid) (name : String) : Takes (Read.flagged name item) fun value elements =>
      ∃ rest, elements = .flag value.isSome :: rest ∧ OfSent mid value rest := by
  unfold Read.flagged
  refine .part (Accepts.flag name) fun present _ => (Takes.optional h present).mono ?_
  rintro value elements ⟨rfl, hsent⟩
  exact ⟨elements, rfl, hsent⟩

theorem Accepts.flagged {α : Type} {item : Read α} {legal : α → Prop} {part : α → List Element}
    (h : Accepts item legal part) (name : String) :
    Accepts (Read.flagged name item) (fun value => ∀ x ∈ value, legal x)
      (Element.flagged part) := by
  refine (Takes.flagged h name).mono fun value elements ⟨rest, hrest, hsent⟩ => ?_
  cases value with
  | none => exact ⟨by simp, hrest.trans (congrArg (List.cons _) hsent)⟩
  | some x => exact ⟨by simpa using hsent.1, hrest.trans (congrArg (List.cons _) hsent.2)⟩

end H264
