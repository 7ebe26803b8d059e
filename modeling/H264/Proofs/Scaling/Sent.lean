import H264.Proofs.Scaling.Lists

/-!
# The ways in which a scaling list is sent

A list of weights is sent by the differences between them. A zero is no weight: in the first place it
marks the default, and behind other weights it says that the last of them repeats up to the end. So
there are three ways in which a list can be sent, `SentBy`.

* `takes_sentBy` — nothing else is read;
* `readsBack_sentBy` — each of them is read back;
* **`list_read_iff_sent`** — a list is read just where one of its writings is found.
-/

namespace H264.ScalingList

/-- The weights whose differences send a list of `size` positions, a zero among them where it is
meant: the default marker, all weights, or those up to the first of at least two that are the same
to the end. -/
inductive SentBy (size : Nat) : (list : ScalingList) → (sent : List Nat) → Prop
  | marker (hsize : 0 < size) : SentBy size useDefault [0]
  | inFull {values : List Nat} (hsize : values.length = size)
      (hvalues : ∀ weight ∈ values, 0 < weight ∧ weight < 256) :
      SentBy size (weights values) values
  | cutShort {front : List Nat} {last count : Nat} (hcount : 2 ≤ count)
      (hsize : front.length + count = size)
      (hvalues : ∀ weight ∈ front ++ [last], 0 < weight ∧ weight < 256) :
      SentBy size (weights (front ++ List.replicate count last)) (front ++ [last, 0])

namespace SentBy

variable {size : Nat} {list : ScalingList} {values sent : List Nat}

/-- One more weight in front. -/
theorem cons {first : Nat} (hfirst : 0 < first ∧ first < 256)
    (h : SentBy size (weights values) sent) :
    SentBy (size + 1) (weights (first :: values)) (first :: sent) := by
  cases h with
  | inFull hsize hvalues =>
    exact .inFull (congrArg (· + 1) hsize) (List.forall_mem_cons.mpr ⟨hfirst, hvalues⟩)
  | cutShort hcount hsize hvalues =>
    rename_i front last count
    have hlonger : (first :: front).length + count = size + 1 := by
      rw [List.length_cons]
      omega
    exact .cutShort hcount hlonger (List.forall_mem_cons.mpr ⟨hfirst, hvalues⟩)

/-- Only valid lists are sent. -/
theorem valid (h : SentBy size list sent) : list.Valid size := by
  cases h with
  | marker => trivial
  | inFull hsize hvalues => exact ⟨hsize, hvalues⟩
  | cutShort hcount hsize hvalues =>
    rename_i front last count
    refine ⟨by rw [List.length_append, List.length_replicate, hsize], fun weight hweight => ?_⟩
    refine hvalues weight ?_
    rcases List.mem_append.mp hweight with hfront | hrepeated
    · exact List.mem_append_left _ hfront
    · rw [List.eq_of_mem_replicate hrepeated]
      exact List.mem_append_right _ (List.mem_singleton_self last)

end SentBy

/-! ## What is read -/

/-- Modulo 256, a difference of one byte is the one of least size. -/
theorem delta_eq {last : Nat} {sent : Int} (hrange : -128 ≤ sent ∧ sent ≤ 127) :
    delta last ((last + sent + 256) % 256).toNat = sent := by
  have hnext : ((((last + sent + 256) % 256).toNat : Nat) : Int) = (last + sent) % (256 : Nat) := by
    omega
  have hself : Int.bmod sent 256 = sent := Int.bmod_eq_of_le (by omega) (by omega)
  have hcancel : (last : Int) + sent - last = sent := by omega
  unfold delta
  rw [hnext, Int.emod_sub_bmod, hcancel, hself]

theorem accepts_next (last : Nat) :
    Accepts (readNext last) (· < 256) fun next => [.se (delta last next)] := by
  unfold readNext
  refine .part (.se _) fun sent _ => .require fun hrange => .pure ⟨?_, ?_⟩
  · omega
  · show [Element.se sent] = [Element.se (delta last _)]
    rw [delta_eq hrange]

/-- Once the last weight repeats, nothing is read any more. -/
theorem readWeights_repeating (last count : Nat) :
    readWeights last true count = pure (List.replicate count last) := by
  induction count with
  | zero => rfl
  | succ count ih =>
    unfold readWeights
    rw [ih, pure_bind, List.replicate_succ]

theorem takes_weights_sentBy {last : Nat} (hlast : 0 < last ∧ last < 256) (count : Nat) :
    Takes (readWeights last false count) fun values elements => ∃ sent,
      SentBy (count + 1) (weights (last :: values)) (last :: sent) ∧
        elements = weightElements last sent := by
  induction count generalizing last with
  | zero =>
    unfold readWeights
    exact .pure ⟨[], .inFull rfl (List.forall_mem_singleton.mpr hlast), rfl⟩
  | succ count ih =>
    unfold readWeights
    refine .part (accepts_next last) fun next hnext => .ite (fun hzero => ?_) fun hpos => ?_
    · -- the last weight repeats: it stands in all places that are left
      rw [readWeights_repeating, pure_bind, hzero]
      have hshort : SentBy (count + 2) (weights ([] ++ List.replicate (count + 2) last))
          ([] ++ [last, 0]) :=
        .cutShort (by omega) (Nat.zero_add _) (List.forall_mem_singleton.mpr hlast)
      exact .pure ⟨[0], hshort, rfl⟩
    · refine (ih ⟨Nat.pos_of_ne_zero hpos, hnext⟩).bind fun values elements hsent => .pure ?_
      obtain ⟨sent, hsent, rfl⟩ := hsent
      refine ⟨next :: sent, hsent.cons hlast, ?_⟩
      rw [List.append_nil]
      rfl

/-- Nothing is read but the differences of a list that is sent. -/
theorem takes_sentBy (size : Nat) : Takes (read size) fun list elements => ∃ sent,
    SentBy size list sent ∧ elements = weightElements initialWeight sent := by
  cases size with
  | zero => exact .pure ⟨[], .inFull rfl (List.forall_mem_nil _), rfl⟩
  | succ size =>
    unfold read
    refine .part (accepts_next _) fun first hfirst => .ite (fun hzero => ?_) fun hpos => ?_
    · rw [hzero]
      exact .pure ⟨[0], .marker (Nat.succ_pos size), rfl⟩
    · have hweight : 0 < first ∧ first < 256 := ⟨Nat.pos_of_ne_zero hpos, hfirst⟩
      refine (takes_weights_sentBy hweight size).bind fun values elements hsent => .pure ?_
      obtain ⟨sent, hsent, rfl⟩ := hsent
      refine ⟨first :: sent, hsent, ?_⟩
      rw [List.append_nil]
      rfl

/-! ## What is read back -/

theorem readsBack_repeating {last : Nat} (count : Nat) :
    ReadsBack (readWeights last false (count + 1)) [.se (delta last 0)]
      (List.replicate (count + 1) last) := by
  unfold readWeights
  refine .cons (readsBack_next last (by decide)) ?_
  rw [if_pos rfl, readWeights_repeating, pure_bind, ← List.replicate_succ]
  exact .pure _

/-- A weight before others. -/
theorem readsBack_cons {last next count : Nat} {elements : List Element} {values : List Nat}
    (hnext : 0 < next ∧ next < 256) (h : ReadsBack (readWeights next false count) elements values) :
    ReadsBack (readWeights last false (count + 1)) (.se (delta last next) :: elements)
      (next :: values) := by
  unfold readWeights
  refine .cons (readsBack_next last hnext.2) ?_
  rw [if_neg (by omega)]
  exact h.map (next :: ·)

/-- The first weight. -/
theorem readsBack_first {first size : Nat} {elements : List Element} {values : List Nat}
    (hfirst : 0 < first ∧ first < 256)
    (h : ReadsBack (readWeights first false size) elements values) :
    ReadsBack (read (size + 1)) (.se (delta initialWeight first) :: elements)
      (weights (first :: values)) := by
  unfold read
  refine .cons (readsBack_next _ hfirst.2) ?_
  rw [if_neg (by omega)]
  exact h.map fun values => weights (first :: values)

/-- Weights up to the first of those that are the same to the end, and a zero. -/
theorem readsBack_cutShort {before last : Nat} {front : List Nat}
    (hvalues : ∀ weight ∈ front ++ [last], 0 < weight ∧ weight < 256) (count : Nat) :
    ReadsBack (readWeights before false (front.length + (count + 2)))
      (weightElements before (front ++ [last, 0])) (front ++ List.replicate (count + 2) last) := by
  induction front generalizing before with
  | nil =>
    have hlast := List.forall_mem_singleton.mp hvalues
    rw [List.length_nil, Nat.zero_add]
    exact readsBack_cons hlast (readsBack_repeating count)
  | cons first front ih =>
    obtain ⟨hfirst, hrest⟩ := List.forall_mem_cons.mp hvalues
    have hcount : (first :: front).length + (count + 2) = front.length + (count + 2) + 1 := by
      rw [List.length_cons]
      omega
    rw [hcount]
    exact readsBack_cons hfirst (ih hrest)

/-- A list that is sent is read back. -/
theorem readsBack_sentBy {size : Nat} {list : ScalingList} {sent : List Nat}
    (h : SentBy size list sent) : ReadsBack (read size) (weightElements initialWeight sent) list := by
  cases h with
  | marker hsize =>
    have hvalid : useDefault.Valid size := trivial
    exact readsBack hsize hvalid
  | inFull hsize hvalues =>
    have hvalid : (weights sent).Valid size := ⟨hsize, hvalues⟩
    cases sent with
    | nil =>
      subst hsize
      exact .pure _
    | cons first rest =>
      subst hsize
      exact readsBack (Nat.succ_pos _) hvalid
  | cutShort hcount hsize hvalues =>
    rename_i front last count
    obtain ⟨count, rfl⟩ : ∃ more, count = more + 2 := ⟨count - 2, by omega⟩
    subst hsize
    cases front with
    | nil =>
      have hlast := List.forall_mem_singleton.mp hvalues
      rw [List.length_nil, Nat.zero_add]
      exact readsBack_first hlast (readsBack_repeating count)
    | cons first front =>
      obtain ⟨hfirst, hrest⟩ := List.forall_mem_cons.mp hvalues
      have hsize : (first :: front).length + (count + 2) = front.length + (count + 2) + 1 := by
        rw [List.length_cons]
        omega
      rw [hsize]
      exact readsBack_first hfirst (readsBack_cutShort hrest count)

/-- **Scaling lists are read just where they are sent.** A reader that gives a list has found one of
its writings next and stops just after it, and where one is found, the list is given. Every writing
is one that a writer takes, and of a valid list: the default marker, or a weight from 1 to 255 for
each position. -/
theorem list_read_iff_sent (size : Nat) :
    (∀ (r : Reader) (list : ScalingList) (after : Reader), read size r = .ok list after ↔
      ∃ sent tail, SentBy size list sent ∧
        r.rest = Element.bits (weightElements initialWeight sent) ++ tail ∧
        after = r.advance (Element.bits (weightElements initialWeight sent)).length) ∧
    ∀ (list : ScalingList) (sent : List Nat), SentBy size list sent → list.Valid size ∧
      ∃ w, Element.writeAll {} (weightElements initialWeight sent) = .ok w ∧
        ∀ (r : Reader) (tail : List Bool), r.rest = w.bits ++ tail →
          read size r = .ok list (r.advance w.bits.length) := by
  refine ⟨fun r list after => ⟨fun hrun => ?_, ?_⟩, fun list sent hsent => ?_⟩
  · obtain ⟨_, tail, ⟨sent, hsent, rfl⟩, hrest, hafter⟩ := takes_sentBy size r list after hrun
    exact ⟨sent, tail, hsent, hrest, hafter⟩
  · rintro ⟨sent, tail, hsent, hrest, rfl⟩
    exact (readsBack_sentBy hsent).reads r tail hrest
  · exact ⟨hsent.valid, (readsBack_sentBy hsent).exists_writer⟩

/-- Sixteen weights, of which the last fourteen are the same and sent as one and a zero: the
difference to zero is -200, or 56 modulo 256. -/
theorem list_read_iff_sent_cutShort :
    let list := weights ([6, 255] ++ List.replicate 14 200)
    let sent := [6, 255] ++ [200, 0]
    SentBy 16 list sent ∧
      weightElements initialWeight sent = [.se (-10), .se (-7), .se (-55), .se 56] ∧
      ∃ w, Element.writeAll {} (weightElements initialWeight sent) = .ok w ∧
        ∀ (r : Reader) (tail : List Bool), r.rest = w.bits ++ tail →
          read 16 r = .ok list (r.advance w.bits.length) := by
  intro list sent
  have hsent : SentBy 16 list sent := .cutShort (by decide) rfl (by decide)
  exact ⟨hsent, rfl, ((list_read_iff_sent 16).2 list sent hsent).2⟩

end H264.ScalingList
