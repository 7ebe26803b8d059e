import H264.Proofs.Bits.Accepted
import H264.Proofs.Bits.Ends
import H264.Proofs.Bits.Written
import H264.Proofs.Faults.Checked

/-!
# Structures that are closed

A structure that fills a payload is closed by a one bit, and only zeros follow. `ReadsClosed` and
`TakesClosed` are `ReadsBack` and `Takes` for an action that reads up to the end: where more fields
may follow, the close decides whether they do. Main statements: `ReadsClosed.exists_writer` says
that what a writer makes of the elements, closed and with zero bytes after it, reads back, and
`TakesClosed.of_value` that a payload which is read is the writing of elements, a one bit and zeros.
-/

namespace H264

/-! ## Reading back -/

/-- The elements fit their codewords, and the action that finds them and the close next gives
`value`. -/
structure ReadsClosed {α : Type} (action : Read α) (elements : List Element) (value : α) :
    Prop where
  fits : ∀ element ∈ elements, element.Fits
  reads : ∀ (r : Reader) (count : Nat),
    r.rest = Element.bits elements ++ true :: List.replicate count false →
      ∃ after, action r = .ok value after

namespace ReadsClosed

variable {α β : Type}

theorem finish (value : α) :
    ReadsClosed (Read.finishRbsp >>= fun _ => Pure.pure value) [] value where
  fits := by simp
  reads r count h := by
    obtain ⟨after, hclose, -⟩ := Read.finishRbsp_of_rest h
    exact ⟨after, bind_of_ok hclose _⟩

theorem bind {first : Read α} {next : α → Read β} {front back : List Element} {x : α} {y : β}
    (hfirst : ReadsBack first front x) (hnext : ReadsClosed (next x) back y) :
    ReadsClosed (first >>= next) (front ++ back) y where
  fits := List.forall_mem_append.mpr ⟨hfirst.fits, hnext.fits⟩
  reads r count h := by
    rw [Element.bits_append, List.append_assoc] at h
    have hrest : (r.advance (Element.bits front).length).rest =
        Element.bits back ++ true :: List.replicate count false := by
      rw [Reader.rest_advance, h, List.drop_left]
    rw [bind_of_ok (hfirst.reads r _ h)]
    exact hnext.reads _ count hrest

/-- What is made of a structure that is closed. -/
theorem map {first : Read α} {elements : List Element} {x : α} (f : α → β)
    (h : ReadsClosed first elements x) :
    ReadsClosed (first >>= fun value => Pure.pure (f value)) elements (f x) where
  fits := h.fits
  reads r count hrest := by
    obtain ⟨after, hrun⟩ := h.reads r count hrest
    exact ⟨after, bind_of_ok hrun _⟩

/-- The last part of a structure. -/
theorem of_append_nil {action : Read α} {elements : List Element} {value : α}
    (h : ReadsClosed action (elements ++ []) value) : ReadsClosed action elements value := by
  rwa [List.append_nil] at h

/-- An element before the rest of an action. -/
theorem cons {first : Read α} {next : α → Read β} {element : Element} {rest : List Element}
    {x : α} {y : β} (hfirst : ReadsBack first [element] x)
    (hnext : ReadsClosed (next x) rest y) :
    ReadsClosed (first >>= next) (element :: rest) y :=
  .bind hfirst hnext

/-- More is found where something is written before the close. -/
theorem more {next : Bool → Read β} {elements : List Element} {y : β}
    (h : ReadsClosed (next (!(Element.bits elements).isEmpty)) elements y) :
    ReadsClosed (Read.more >>= next) elements y where
  fits := h.fits
  reads r count hrest := by
    have hmore : r.hasMore = !(Element.bits elements).isEmpty := by
      rw [Reader.hasMore_eq, hrest]
      cases Element.bits elements with
      | nil => simp
      | cons bit bits => simp
    show ∃ after, (get >>= fun r => next r.hasMore) r = _
    rw [get_bind, hmore]
    exact h.reads r count hrest

/-- What a writer makes of the elements, closed and with zero bytes after it, reads back. -/
theorem exists_writer {action : Read α} {elements : List Element} {value : α}
    (h : ReadsClosed action elements value) : ∃ w, Element.writeAll {} elements = .ok w ∧
      ∀ zeros, Read.value action (w.trailing.toBytes ++ List.replicate zeros 0) = .ok value := by
  refine ⟨_, Element.writeAll_of_fits {} h.fits, fun zeros => ?_⟩
  obtain ⟨count, hbits⟩ := Writer.exists_bits_trailing (Writer.append {} _) zeros
  rw [Writer.bits_append_empty] at hbits
  obtain ⟨after, hrun⟩ := h.reads { data := _ } count hbits
  exact Read.value_of_ok hrun

end ReadsClosed

/-! ## What is accepted -/

/-- An action that succeeds has taken all that remains: the writing of elements of which `post`
holds, and the close. -/
def TakesClosed {α : Type} (action : Read α) (post : α → List Element → Prop) : Prop :=
  ∀ r value after, action r = .ok value after → ∃ elements count, post value elements ∧
    r.rest = Element.bits elements ++ true :: List.replicate count false

namespace TakesClosed

variable {α β : Type}

theorem finish {value : α} {post : α → List Element → Prop} (h : post value []) :
    TakesClosed (Read.finishRbsp >>= fun _ => Pure.pure value) post := by
  intro r result after hrun
  cases hclose : Read.finishRbsp r with
  | error error r' =>
    rw [bind_of_error hclose] at hrun
    cases hrun
  | ok done r' =>
    rw [bind_of_ok hclose] at hrun
    cases hrun
    obtain ⟨count, hrest⟩ := Read.rest_of_finishRbsp hclose
    exact ⟨[], count, h, hrest⟩

theorem bind {first : Read α} {next : α → Read β} {mid : α → List Element → Prop}
    {post : β → List Element → Prop} (hfirst : Takes first mid)
    (hnext : ∀ x front, mid x front → TakesClosed (next x) fun y back => post y (front ++ back)) :
    TakesClosed (first >>= next) post := by
  intro r y after hrun
  cases hmid : first r with
  | error error r' =>
    rw [bind_of_error hmid] at hrun
    cases hrun
  | ok x r' =>
    rw [bind_of_ok hmid] at hrun
    obtain ⟨front, rest, hfront, hrest, rfl⟩ := hfirst r x r' hmid
    obtain ⟨back, count, hback, hclose⟩ := hnext x front hfront _ y after hrun
    rw [Reader.rest_advance, hrest, List.drop_left] at hclose
    refine ⟨front ++ back, count, hback, ?_⟩
    rw [hrest, hclose, Element.bits_append, List.append_assoc]

/-- A part that is accepted, before the rest of an action. -/
theorem part {first : Read α} {next : α → Read β} {legal : α → Prop} {part : α → List Element}
    {post : β → List Element → Prop} (hfirst : Accepts first legal part)
    (hnext : ∀ x, legal x → TakesClosed (next x) fun y back => post y (part x ++ back)) :
    TakesClosed (first >>= next) post :=
  .bind hfirst fun x _ ⟨hx, hfront⟩ => hfront ▸ hnext x hx

/-- A step that takes nothing, before the rest of an action. -/
theorem step {first : Read α} {next : α → Read β} {legal : α → Prop}
    {post : β → List Element → Prop} (hfirst : Accepts first legal fun _ => [])
    (hnext : ∀ x, legal x → TakesClosed (next x) post) : TakesClosed (first >>= next) post :=
  .part hfirst hnext

/-- A payload that is read is the writing of elements, a one bit and zeros. -/
theorem of_value {action : Read α} {post : α → List Element → Prop} {data : Bytes} {value : α}
    (h : TakesClosed action post) (hvalue : Read.value action data = .ok value) :
    ∃ elements count, post value elements ∧
      Bytes.bits data = Element.bits elements ++ true :: List.replicate count false := by
  obtain ⟨after, hrun⟩ := Read.exists_run_of_value hvalue
  exact h { data } value after hrun

end TakesClosed

/-- An action that reads back the valid values, and takes nothing but the writing of the value where
a value can be sent in one way only, accepts exactly what a writer makes of valid values. -/
theorem ReadsClosed.iff_written {α : Type} {action : Read α} {valid oneWay : α → Prop}
    {part : α → List Element} (hreads : ∀ value, valid value → ReadsClosed action (part value) value)
    (htakes : TakesClosed action fun value elements =>
      valid value ∧ (oneWay value → elements = part value)) :
    (∀ value, valid value → ∃ w, Element.writeAll {} (part value) = .ok w ∧
      ∀ zeros, Read.value action (w.trailing.toBytes ++ List.replicate zeros 0) = .ok value) ∧
    ∀ data value, Read.value action data = .ok value → valid value ∧ (oneWay value →
      ∃ w zeros, Element.writeAll {} (part value) = .ok w ∧
        Bytes.bits data = w.bits ++ true :: List.replicate zeros false) := by
  refine ⟨fun value hvalid => (hreads value hvalid).exists_writer, fun data value hread => ?_⟩
  obtain ⟨elements, zeros, ⟨hvalid, helements⟩, hbits⟩ := htakes.of_value hread
  refine ⟨hvalid, fun honeWay => ?_⟩
  rw [helements honeWay, ← Writer.bits_append_empty (Element.bits (part value))] at hbits
  exact ⟨_, zeros, Element.writeAll_of_fits {} (hreads value hvalid).fits, hbits⟩

end H264
