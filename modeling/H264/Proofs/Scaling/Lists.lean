import H264.Proofs.Bits.Accepted
import H264.Scaling.Basic
import Mathlib.Data.Int.Basic

/-!
# Valid scaling lists

A scaling list is valid if it is the default marker or has a weight from 1 to 255 for each position.
Main statements: `ScalingMatrix.readsBack` says that the elements of a matrix of valid lists read
back, and `ScalingMatrix.takes` that only such matrices are read. A list may be sent in other ways
than by its elements, with larger differences or with its last weights left out; so nothing is said
of the elements that were taken.
-/

namespace H264

namespace ScalingList

/-- A valid list of `size` positions. -/
def Valid (size : Nat) : ScalingList → Prop
  | useDefault => True
  | weights values => values.length = size ∧ ∀ weight ∈ values, 0 < weight ∧ weight < 256

/-! ## Differences -/

theorem delta_range (last next : Nat) : -128 ≤ delta last next ∧ delta last next ≤ 127 := by
  have hle : -((256 : Nat) / 2 : Int) ≤ delta last next := Int.le_bmod (by decide)
  have hlt : delta last next < ((256 : Nat) + 1) / 2 := Int.bmod_lt (by decide)
  omega

/-- The difference leads from one weight to the next. -/
theorem add_delta (last : Nat) {next : Nat} (h : next < 256) :
    ((last + delta last next + 256) % 256).toNat = next := by
  have hmod : (last + delta last next) % 256 = next % 256 := by
    unfold delta
    have hself : Int.bmod (next - last) 256 % (256 : Nat) = (next - last) % (256 : Nat) :=
      Int.bmod_emod
    omega
  omega

theorem readsBack_next (last : Nat) {next : Nat} (h : next < 256) :
    ReadsBack (readNext last) [.se (delta last next)] next := by
  have hrange := delta_range last next
  have hvalue := add_delta last h
  have hpure := ReadsBack.pure next
  unfold readNext
  refine .cons (.se _ ?_) ?_
  · exact ⟨Int.le_trans (by decide) hrange.1, Int.le_trans hrange.2 (by decide)⟩
  · dsimp only
    rw [if_pos hrange, hvalue]
    exact hpure

/-! ## Lists -/

theorem readsBack_weights {last : Nat} {values : List Nat}
    (h : ∀ weight ∈ values, 0 < weight ∧ weight < 256) :
    ReadsBack (readWeights last false values.length) (weightElements last values) values := by
  induction values generalizing last with
  | nil =>
    unfold readWeights
    exact .pure []
  | cons next rest ih =>
    obtain ⟨⟨hpos, hlt⟩, hrest⟩ := List.forall_mem_cons.mp h
    unfold readWeights
    refine .cons (readsBack_next last hlt) ?_
    rw [if_neg (by omega)]
    exact (ih hrest).map (next :: ·)

theorem readsBack {size : Nat} {list : ScalingList} (hsize : 0 < size) (h : list.Valid size) :
    ReadsBack (read size) list.elements list := by
  obtain ⟨size, rfl⟩ : ∃ n, size = n + 1 := ⟨size - 1, by omega⟩
  cases list with
  | useDefault =>
    unfold read
    exact .cons (readsBack_next _ (by decide)) (.pure _)
  | weights values =>
    obtain ⟨hlength, hvalues⟩ := h
    obtain ⟨first, rest, rfl⟩ := List.exists_cons_of_length_eq_add_one hlength
    obtain ⟨⟨hpos, hlt⟩, hrest⟩ := List.forall_mem_cons.mp hvalues
    have hcount : size = rest.length := (Nat.succ.inj hlength).symm
    subst hcount
    unfold read
    -- a first weight of zero would say that the default list is meant
    refine .cons (readsBack_next _ hlt) ?_
    rw [if_neg (by omega)]
    exact (readsBack_weights hrest).map fun rest => weights (first :: rest)

theorem takes_next (last : Nat) : Takes (readNext last) fun next _ => next < 256 := by
  unfold readNext
  refine .part (.se _) fun delta _ => .require fun _ => .pure ?_
  omega

/-- The weights are positive since a zero only says that the last one repeats. -/
theorem takes_weights {last : Nat} (hlast : 0 < last ∧ last < 256) (repeating : Bool)
    (count : Nat) : Takes (readWeights last repeating count) fun values _ =>
      values.length = count ∧ ∀ weight ∈ values, 0 < weight ∧ weight < 256 := by
  have hcons : ∀ {weight count : Nat} {rest : List Nat}, 0 < weight ∧ weight < 256 →
      (rest.length = count ∧ ∀ weight ∈ rest, 0 < weight ∧ weight < 256) →
      (weight :: rest).length = count + 1 ∧ ∀ w ∈ weight :: rest, 0 < w ∧ w < 256 :=
    fun hweight ⟨hlength, hrest⟩ =>
      ⟨congrArg (· + 1) hlength, List.forall_mem_cons.mpr ⟨hweight, hrest⟩⟩
  induction count generalizing last repeating with
  | zero =>
    have hnil : readWeights last repeating 0 = Pure.pure [] := by cases repeating <;> rfl
    rw [hnil]
    exact .pure ⟨rfl, by simp⟩
  | succ count ih =>
    cases repeating with
    | true =>
      -- nothing is read any more: the weights that are left are the last one
      unfold readWeights
      exact (ih hlast true).bind fun rest _ hrest => .pure (hcons hlast hrest)
    | false =>
      unfold readWeights
      refine (takes_next last).bind fun next _ hnext => .ite (fun hzero => ?_) fun hpos => ?_
      · -- from a zero on the last weight repeats
        exact (ih hlast true).bind fun rest _ hrest => .pure (hcons hlast hrest)
      · have hweight : 0 < next ∧ next < 256 := ⟨Nat.pos_of_ne_zero hpos, hnext⟩
        exact (ih hweight false).bind fun rest _ hrest => .pure (hcons hweight hrest)

theorem takes (size : Nat) : Takes (read size) fun list _ => list.Valid size := by
  cases size with
  | zero => exact .pure ⟨rfl, by simp⟩
  | succ size =>
    unfold read
    refine (takes_next _).bind fun first _ hfirst => .ite (fun _ => .pure trivial) fun hpos => ?_
    have hweight : 0 < first ∧ first < 256 := ⟨Nat.pos_of_ne_zero hpos, hfirst⟩
    refine (takes_weights hweight false size).bind fun rest _ ⟨hlength, hrest⟩ => .pure ?_
    exact ⟨congrArg (· + 1) hlength, List.forall_mem_cons.mpr ⟨hweight, hrest⟩⟩

theorem sizeAt_pos (index : Nat) : 0 < sizeAt index := by
  unfold sizeAt
  split <;> decide

end ScalingList

namespace ScalingMatrix

/-! ## Matrices -/

/-- Lists that are valid where they are sent, the first of them the one with the index `index`. -/
def ValidFrom (index : Nat) : List (Option ScalingList) → Prop
  | [] => True
  | first :: rest =>
    (∀ list ∈ first, list.Valid (ScalingList.sizeAt index)) ∧ ValidFrom (index + 1) rest

/-- A matrix of `count` lists, each of them valid if it is sent. -/
structure Valid (count : Nat) (matrix : ScalingMatrix) : Prop where
  count : matrix.lists.length = count
  lists : ValidFrom 0 matrix.lists

theorem readsBack_from {index : Nat} {lists : List (Option ScalingList)}
    (h : ValidFrom index lists) : ReadsBack (readFrom index lists.length)
      (lists.flatMap (Element.flagged ScalingList.elements)) lists := by
  induction lists generalizing index with
  | nil => exact .pure []
  | cons first rest ih =>
    obtain ⟨hfirst, hrest⟩ := h
    have hlist : ∀ list ∈ first, ReadsBack (ScalingList.read (ScalingList.sizeAt index))
        list.elements list :=
      fun list hlist => ScalingList.readsBack (ScalingList.sizeAt_pos index) (hfirst list hlist)
    exact .bind (.flagged _ hlist) ((ih hrest).map (first :: ·))

/-- The elements of a matrix of valid lists read back. -/
theorem readsBack {count : Nat} {matrix : ScalingMatrix} (h : matrix.Valid count) :
    ReadsBack (read count) matrix.elements matrix := by
  rw [← h.count]
  exact (readsBack_from h.lists).map ScalingMatrix.mk

theorem takes_from (index count : Nat) :
    Takes (readFrom index count) fun lists _ => lists.length = count ∧ ValidFrom index lists := by
  induction count generalizing index with
  | zero => exact .pure ⟨rfl, trivial⟩
  | succ count ih =>
    refine (Takes.flagged (ScalingList.takes _) _).bind fun first _ ⟨_, _, hfirst⟩ => ?_
    refine (ih (index + 1)).bind fun rest _ ⟨hlength, hrest⟩ => .pure ⟨?_, ?_, hrest⟩
    · exact congrArg (· + 1) hlength
    · rintro list rfl
      exact hfirst

/-- Only matrices of valid lists are read. -/
theorem takes (count : Nat) : Takes (read count) fun matrix _ => matrix.Valid count := by
  unfold read
  exact (takes_from 0 count).bind fun lists _ ⟨hlength, hlists⟩ => .pure ⟨hlength, hlists⟩

end ScalingMatrix

end H264
