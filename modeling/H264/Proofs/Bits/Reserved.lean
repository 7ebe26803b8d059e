import H264.Proofs.Bits.Closed

/-!
# Reserved bits before the close

Where a flag announces extensions that are not decoded, everything up to the last one bit of the
payload is passed over: the close is found from the end, and what the reserved bits are does not
matter. `ReadsClosed.reserved` is the rule for such an end of a structure, in which reserved bits
are elements of one bit each; `ReadsClosed.exists_writer_reserved` says that a structure which ends
so reads back with any bits between its elements and the close.
-/

namespace H264

/-! ## Reserved bits as elements -/

theorem Element.bits_map_flag (reserved : List Bool) :
    Element.bits (reserved.map Element.flag) = reserved := by
  induction reserved with
  | nil => rfl
  | cons bit reserved ih =>
    rw [List.map_cons, Element.bits_cons, Element.codeword_flag, ih]
    rfl

theorem Element.fits_map_flag (reserved : List Bool) :
    ∀ element ∈ reserved.map Element.flag, element.Fits := by
  intro element hmem
  obtain ⟨bit, -, rfl⟩ := List.mem_map.mp hmem
  cases bit <;> decide

namespace ReadsClosed

variable {α : Type}

/-- Where a flag announces reserved bits, any of them may stand before the close, and else none. -/
theorem reserved {announced : Bool} {bits : List Bool} (h : announced = false → bits = [])
    (value : α) :
    ReadsClosed
      (if announced = true then
        Read.skipToTrailing >>= fun _ => Read.finishRbsp >>= fun _ => Pure.pure value
      else Read.finishRbsp >>= fun _ => Pure.pure value)
      (bits.map Element.flag) value := by
  cases announced with
  | false =>
    rw [h rfl]
    exact .finish value
  | true =>
    refine ⟨Element.fits_map_flag bits, fun r count hrest => ?_⟩
    rw [Element.bits_map_flag] at hrest
    have hclose : (r.advance bits.length).rest = true :: List.replicate count false := by
      rw [Reader.rest_advance, hrest, List.drop_left]
    obtain ⟨after, hend, -⟩ := Read.finishRbsp_of_rest hclose
    rw [if_pos rfl, bind_of_ok (Read.skipToTrailing_of_rest hrest), bind_of_ok hend]
    exact ⟨after, rfl⟩

/-- What a writer makes of the elements, any bits, the close and zero bytes reads back. -/
theorem exists_writer_reserved {action : Read α} {elements : List Element} {value : α}
    (h : ∀ reserved : List Bool,
      ReadsClosed action (elements ++ reserved.map Element.flag) value) :
    ∃ w, Element.writeAll {} elements = .ok w ∧ ∀ (reserved : List Bool) (zeros : Nat),
      Read.value action ((w.append reserved).trailing.toBytes ++ List.replicate zeros 0) =
        .ok value := by
  have hfits := (List.forall_mem_append.mp (h []).fits).1
  refine ⟨_, Element.writeAll_of_fits {} hfits, fun reserved zeros => ?_⟩
  obtain ⟨w, hwrite, hread⟩ := (h reserved).exists_writer
  rw [Element.writeAll_of_fits {} (h reserved).fits, Element.bits_append,
    Element.bits_map_flag] at hwrite
  -- the bits that are appended to the elements are those of one writer of all
  have hw : w = (Writer.append {} (Element.bits elements)).append reserved := by
    rw [← Except.ok.inj hwrite, Writer.append_append]
  exact hw ▸ hread zeros

end ReadsClosed

end H264
