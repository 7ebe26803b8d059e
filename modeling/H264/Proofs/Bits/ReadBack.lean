import H264.Proofs.Bits.Reads
import H264.Proofs.Bits.Written

/-!
# Reading back elements

`ReadsBack action elements value` says that the elements fit their codewords, so that a writer takes
them, and that the action which finds them next takes just them and gives `value`, whatever follows.
The rules follow the ways in which actions are put together, `cons` for an element and `bind` for a
part, so that a structure is read back once each of its fields is.
-/

namespace H264

/-! ## Signed codes -/

/-- The greatest magnitude of a number with a signed code. -/
def Codeword.maxSigned : Int := 1 <<< Codeword.maxLeadingZeros - 1

theorem Codeword.fits_se_iff {value : Int} :
    (Element.se value).Fits ↔ -maxSigned ≤ value ∧ value ≤ maxSigned := by
  have hsigned : maxSigned = 2147483647 := rfl
  have hcode : maxCodeNumber = 4294967294 := rfl
  show numberOfSigned value ≤ maxCodeNumber ↔ _
  unfold numberOfSigned
  split <;> omega

/-! ## Parts that may be absent -/

/-- A part that may be absent and is sent as something else. -/
theorem Element.sent_map {α β : Type} (part : β → List Element) (f : α → β) (value : Option α) :
    sent part (do return f (← value)) = sent (fun x => part (f x)) value := by
  cases value <;> rfl

/-! ## The relation -/

/-- The elements fit their codewords, and the action that finds them next takes just them and gives
`value`. -/
structure ReadsBack {α : Type} (action : Read α) (elements : List Element) (value : α) : Prop where
  fits : ∀ element ∈ elements, element.Fits
  reads : Reads action (Element.bits elements) value

namespace ReadsBack

variable {α β : Type}

/-! ## Putting actions together -/

theorem pure (value : α) : ReadsBack (Pure.pure value : Read α) [] value :=
  ⟨by simp, .pure value⟩

theorem bind {first : Read α} {next : α → Read β} {front back : List Element} {x : α} {y : β}
    (hfirst : ReadsBack first front x) (hnext : ReadsBack (next x) back y) :
    ReadsBack (first >>= next) (front ++ back) y where
  fits := List.forall_mem_append.mpr ⟨hfirst.fits, hnext.fits⟩
  reads := by
    rw [Element.bits_append]
    exact hfirst.reads.bind hnext.reads

/-- An element before the rest of an action. -/
theorem cons {first : Read α} {next : α → Read β} {element : Element} {rest : List Element}
    {x : α} {y : β} (hfirst : ReadsBack first [element] x) (hnext : ReadsBack (next x) rest y) :
    ReadsBack (first >>= next) (element :: rest) y :=
  hfirst.bind hnext

/-- A step that takes nothing, before the rest of an action. -/
theorem step {first : Read α} {next : α → Read β} {elements : List Element} {x : α} {y : β}
    (hfirst : ReadsBack first [] x) (hnext : ReadsBack (next x) elements y) :
    ReadsBack (first >>= next) elements y :=
  hfirst.bind hnext

/-- The last part of a structure. -/
theorem of_append_nil {action : Read α} {elements : List Element} {value : α}
    (h : ReadsBack action (elements ++ []) value) : ReadsBack action elements value := by
  rwa [List.append_nil] at h

theorem map {first : Read α} {elements : List Element} {x : α} (f : α → β)
    (h : ReadsBack first elements x) : ReadsBack (f <$> first) elements (f x) :=
  ⟨h.fits, h.reads.map f⟩

theorem ite {condition : Prop} [Decidable condition] {yes no : Read α}
    {front back : List Element} {value : α} (hyes : condition → ReadsBack yes front value)
    (hno : ¬condition → ReadsBack no back value) :
    ReadsBack (if condition then yes else no) (if condition then front else back) value := by
  by_cases h : condition
  · rw [if_pos h, if_pos h]
    exact hyes h
  · rw [if_neg h, if_neg h]
    exact hno h

/-- A field that is sent just where a flag says so, and has a known value where it is not. -/
theorem sentIf {sent : Bool} {item : Read α} {elements : List Element} {value absent : α}
    (hsent : sent = true → ReadsBack item elements value) (habsent : sent = false → value = absent) :
    ReadsBack (if sent = true then item else Pure.pure absent)
      (if sent = true then elements else []) value := by
  cases sent with
  | true => exact hsent rfl
  | false =>
    rw [habsent rfl]
    exact pure absent

/-- A field whose form depends on a condition, before the rest of an action. -/
theorem branch {condition : Prop} [Decidable condition] {yes no : Read α} {rest : α → Read β}
    {front back : List Element} {x : α} {y : β}
    (hfield : ReadsBack (if condition then yes else no) front x)
    (hrest : ReadsBack (rest x) back y) :
    ReadsBack (if condition then yes >>= rest else no >>= rest) (front ++ back) y := by
  have hboth := hfield.bind hrest
  by_cases h : condition
  · rw [if_pos h] at hboth ⊢
    exact hboth
  · rw [if_neg h] at hboth ⊢
    exact hboth

/-- A condition that ends an action does not hold. -/
theorem guard {condition : Prop} [Decidable condition] {error : Error} {rest : PUnit → Read α}
    {elements : List Element} {value : α} (h : ¬condition)
    (hrest : ReadsBack (rest ⟨⟩) elements value) :
    ReadsBack (if condition then throw error >>= rest else rest ⟨⟩) elements value := by
  rw [if_neg h]
  exact hrest

theorem ofExcept {outcome : Except Error α} {value : α} (h : outcome = .ok value) :
    ReadsBack (Read.ofExcept outcome) [] value := by
  rw [h]
  exact pure value

/-! ## Elements -/

theorem bits {width value : Nat} (name : String) (hwidth : width ≤ Read.maxWidth)
    (h : value < 2 ^ width) : ReadsBack (Read.bits width name) [.u width value] value where
  fits := by
    rw [List.forall_mem_singleton]
    exact ⟨Int.natCast_nonneg width, Int.natCast_nonneg value, by
      rwa [Int.toNat_natCast, Int.toNat_natCast, Nat.one_shiftLeft]⟩
  reads := by
    have hread := Reads.bits width value name hwidth h
    rwa [← Element.codeword_u, ← List.append_nil (Element.codeword _)] at hread

theorem u8 {value : Nat} (name : String) (h : value < 256) :
    ReadsBack (Read.u8 name) [.u 8 value] value :=
  bits name (by decide) h

theorem flag (name : String) (value : Bool) :
    ReadsBack (Read.flag name) [.flag value] value where
  fits := by cases value <;> decide
  reads := by
    have hread := Reads.flag name value
    rwa [← Element.codeword_flag, ← List.append_nil (Element.codeword _)] at hread

theorem ue {value : Nat} (name : String) (h : value ≤ Codeword.maxCodeNumber) :
    ReadsBack (Read.ue name) [.ue value] value where
  fits := by
    rw [List.forall_mem_singleton]
    exact ⟨Int.natCast_nonneg value, Int.ofNat_le.mpr h⟩
  reads := by
    have hread := Reads.ue name h
    rwa [← Element.codeword_ue, ← List.append_nil (Element.codeword _)] at hread

theorem se {value : Int} (name : String)
    (h : -Codeword.maxSigned ≤ value ∧ value ≤ Codeword.maxSigned) :
    ReadsBack (Read.se name) [.se value] value where
  fits := by rwa [List.forall_mem_singleton, Codeword.fits_se_iff]
  reads := by
    have hread := Reads.se name (Codeword.fits_se_iff.mpr h)
    rwa [← Element.codeword_se, ← List.append_nil (Element.codeword _)] at hread

theorem ueMax {value maximum : Nat} (name : String) (h : value ≤ maximum)
    (hmaximum : maximum ≤ Codeword.maxCodeNumber) :
    ReadsBack (Read.ueMax name maximum) [.ue value] value where
  fits := (ue name (Nat.le_trans h hmaximum)).fits
  reads := by
    have hread := Reads.ueMax name (Int.ofNat_le.mpr h) (Nat.le_trans h hmaximum)
    rwa [← Element.codeword_ue, ← List.append_nil (Element.codeword _)] at hread

theorem seRange {value least greatest : Int} (name : String) (h : least ≤ value ∧ value ≤ greatest)
    (hleast : -Codeword.maxSigned ≤ least) (hgreatest : greatest ≤ Codeword.maxSigned) :
    ReadsBack (Read.seRange name least greatest) [.se value] value := by
  have hcode := And.intro (Int.le_trans hleast h.1) (Int.le_trans h.2 hgreatest)
  have hread := Reads.seRange name h (Codeword.fits_se_iff.mpr hcode)
  rw [← Element.codeword_se, ← List.append_nil (Element.codeword _)] at hread
  exact ⟨(se name hcode).fits, hread⟩

/-! ## Repetition and presence -/

theorem times {item : Read α} {part : α → List Element} {values : List α} {count : Nat}
    (hcount : values.length = count) (h : ∀ value ∈ values, ReadsBack item (part value) value) :
    ReadsBack (Read.times item count) (values.flatMap part) values := by
  induction values generalizing count with
  | nil =>
    subst hcount
    exact pure []
  | cons first rest ih =>
    subst hcount
    obtain ⟨hfirst, hrest⟩ := List.forall_mem_cons.mp h
    rw [List.flatMap_cons]
    exact hfirst.bind ((ih rfl hrest).map (first :: ·))

/-- One part of each of some structures, sent apart from the others. -/
theorem times_map {item : Read β} {part : β → List Element} {field : α → β} {values : List α}
    (h : ∀ value ∈ values, ReadsBack item (part (field value)) (field value)) :
    ReadsBack (Read.times item values.length) (values.flatMap fun value => part (field value))
      (values.map field) := by
  rw [← List.flatMap_map]
  refine times (List.length_map _) ?_
  intro sent hsent
  obtain ⟨value, hvalue, rfl⟩ := List.mem_map.mp hsent
  exact h value hvalue

theorem optional {item : Read α} {part : α → List Element} {value : Option α} {present : Bool}
    (hpresent : value.isSome = present) (h : ∀ x ∈ value, ReadsBack item (part x) x) :
    ReadsBack (Read.optional present item) (Element.sent part value) value := by
  subst hpresent
  cases value with
  | none => exact pure none
  | some x => exact (h x rfl).map some

theorem flagged {item : Read α} {part : α → List Element} {value : Option α} (name : String)
    (h : ∀ x ∈ value, ReadsBack item (part x) x) :
    ReadsBack (Read.flagged name item) (Element.flagged part value) value :=
  .cons (.flag name _) (.optional rfl h)

/-! ## What a writer makes of the elements -/

/-- A writer takes the elements, and a reader that finds what was written next gives the value and
stops just after it. -/
theorem exists_writer {action : Read α} {elements : List Element} {value : α}
    (h : ReadsBack action elements value) : ∃ w, Element.writeAll {} elements = .ok w ∧
      ∀ (r : Reader) (tail : List Bool), r.rest = w.bits ++ tail →
        action r = .ok value (r.advance w.bits.length) := by
  refine ⟨_, Element.writeAll_of_fits {} h.fits, ?_⟩
  rw [Writer.bits_append]
  exact h.reads

end ReadsBack

end H264
