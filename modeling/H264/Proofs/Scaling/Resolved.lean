import H264.Proofs.Scaling.Placement
import Mathlib.Data.List.Induction

/-!
# Matrices of lists that were not sent

Where a list was not sent, the matrix of the one before it of its kind holds, and where no such one
was sent either, a fall-back. `WalksTo` goes back from a list in this way, and `GivenBy` says which
matrix the list at the end of the way gives. **Main statement** (`resolvedBy_resolve`): the matrices
of valid lists are found so, one for each list, and finding them never fails: `resolve?` gives up
where weights do not fill a matrix or a matrix that is taken over is missing, and gives the same.

* `WalksTo.unique` — there is one way back from each list;
* `resolvedBy_concat` — what one more list adds.
-/

namespace H264.ScalingMatrix

open Weights

/-! ## The way back -/

/-- The index of the list of the same kind before the one with an index. -/
def indexBefore (index : Nat) : Nat :=
  if index < 6 then index - 1 else index - 2

/-- Going back from the list with an index, as far as lists were not sent, ends with the list with
the index `source`: one that was sent, or the first of its kind. -/
inductive WalksTo (lists : List (Option ScalingList)) : (index source : Nat) → Prop
  | sent {index : Nat} {list : ScalingList} (h : lists[index]? = some (some list)) :
    WalksTo lists index index
  | head {index : Nat} (h : lists[index]? = some none) (hhead : index ∈ heads) :
    WalksTo lists index index
  | back {index source : Nat} (h : lists[index]? = some none) (hhead : index ∉ heads)
    (rest : WalksTo lists (indexBefore index) source) : WalksTo lists index source

theorem indexBefore_lt {index : Nat} (h : index ∉ heads) : indexBefore index < index := by
  have hpos : index ≠ 0 := by
    rintro rfl
    exact h (by decide)
  unfold indexBefore
  split <;> omega

/-- The list before another one is of the same kind. -/
theorem sideAt_indexBefore {index : Nat} (h : index ∉ heads) :
    sideAt (indexBefore index) = sideAt index := by
  have hkinds : index ≠ 6 ∧ index ≠ 7 := by
    constructor <;> rintro rfl <;> exact h (by decide)
  unfold sideAt indexBefore
  by_cases hsmall : index < 6
  · rw [if_pos hsmall, if_pos hsmall, if_pos (by omega)]
  · rw [if_neg hsmall, if_neg hsmall, if_neg (by omega)]

namespace WalksTo

variable {lists : List (Option ScalingList)} {index source other : Nat}

theorem unique (h : WalksTo lists index source) (hother : WalksTo lists index other) :
    source = other := by
  induction h with
  | sent hsent =>
    cases hother with
    | sent => rfl
    | head => rfl
    | back hnone => rw [hsent] at hnone; cases hnone
  | head hnone hhead =>
    cases hother with
    | sent => rfl
    | head => rfl
    | back _ hno => exact absurd hhead hno
  | back hnone hhead _ ih =>
    cases hother with
    | sent hsent => rw [hnone] at hsent; cases hsent
    | head _ hyes => exact absurd hyes hhead
    | back _ _ hrest => exact ih hrest

/-- More lists change nothing. -/
theorem append (h : WalksTo lists index source) (more : List (Option ScalingList)) :
    WalksTo (lists ++ more) index source := by
  have hkeep : ∀ {place : Nat} {list : Option ScalingList},
      lists[place]? = some list → (lists ++ more)[place]? = some list := by
    intro place list hlist
    rw [List.getElem?_append_left (List.getElem?_eq_some_iff.mp hlist).1, hlist]
  induction h with
  | sent hsent => exact .sent (hkeep hsent)
  | head hnone hhead => exact .head (hkeep hnone) hhead
  | back hnone hhead _ ih => exact .back (hkeep hnone) hhead ih

theorem exists_list (h : WalksTo lists index source) : ∃ list, lists[source]? = some list := by
  induction h with
  | sent hsent => exact ⟨_, hsent⟩
  | head hnone => exact ⟨_, hnone⟩
  | back _ _ _ ih => exact ih

end WalksTo

/-! ## The matrix at its end -/

/-- The matrix that the list with the index `source` gives: its own weights along the scan, the
default ones of its index, or, where it was not sent, what there is to fall back to. -/
def GivenBy (lists : List (Option ScalingList)) (fallback : Option (List Weights)) (source : Nat)
    (matrix : Weights) : Prop :=
  match lists[source]?, fallback with
  | some (some (.weights values)), _ => AlongScan (sideAt source) values matrix
  | some (some .useDefault), _ => AlongScan (sideAt source) (defaultList source) matrix
  | some none, some matrices => matrices[source]? = some matrix
  | some none, none => AlongScan (sideAt source) (defaultList source) matrix
  | none, _ => False

/-- The way back from the list with an index leads to a matrix, a square of weights. -/
def LeadsTo (lists : List (Option ScalingList)) (fallback : Option (List Weights)) (index : Nat)
    (matrix : Weights) : Prop :=
  ∃ source, WalksTo lists index source ∧ GivenBy lists fallback source matrix ∧
    Legal (sideAt index) matrix

/-- A matrix for each list, the one to which the way back leads. -/
structure ResolvedBy (lists : List (Option ScalingList)) (fallback : Option (List Weights))
    (matrices : List Weights) : Prop where
  count : matrices.length = lists.length
  found : ∀ index, index < lists.length → ∃ matrix, matrices[index]? = some matrix ∧
    LeadsTo lists fallback index matrix

/-- Matrices that can be fallen back to: one at least for the first list of each kind, all of them
squares of weights. -/
structure LegalFallback (matrices : List Weights) : Prop where
  heads : ∀ index ∈ heads, index < matrices.length
  legal : ∀ index matrix, matrices[index]? = some matrix → Legal (sideAt index) matrix

namespace LeadsTo

variable {lists : List (Option ScalingList)} {fallback : Option (List Weights)} {index : Nat}
  {matrix : Weights}

theorem append (h : LeadsTo lists fallback index matrix) (more : List (Option ScalingList)) :
    LeadsTo (lists ++ more) fallback index matrix := by
  obtain ⟨source, hwalk, hgiven, hlegal⟩ := h
  obtain ⟨list, hlist⟩ := hwalk.exists_list
  refine ⟨source, hwalk.append more, ?_, hlegal⟩
  unfold GivenBy
  rwa [List.getElem?_append_left (List.getElem?_eq_some_iff.mp hlist).1]

theorem weights {values : List Nat} (h : lists[index]? = some (some (.weights values)))
    (hvalid : (ScalingList.weights values).Valid (ScalingList.sizeAt index)) :
    LeadsTo lists fallback index (ofList values) := by
  refine ⟨index, .sent h, ?_, legal_ofList hvalid⟩
  unfold GivenBy
  rw [h]
  exact alongScan_ofList hvalid

theorem useDefault (h : lists[index]? = some (some .useDefault)) :
    LeadsTo lists fallback index (ofList (defaultList index)) := by
  have hvalid := valid_defaultList index
  refine ⟨index, .sent h, ?_, legal_ofList hvalid⟩
  unfold GivenBy
  rw [h]
  exact alongScan_ofList hvalid

/-- The first list of a kind falls back. -/
theorem head (h : lists[index]? = some none) (hhead : index ∈ heads)
    (hfallback : ∀ matrices ∈ fallback, LegalFallback matrices) :
    LeadsTo lists fallback index
      ((fallback.bind (·[index]?)).getD (ofList (defaultList index))) := by
  have hvalid := valid_defaultList index
  cases fallback with
  | none =>
    refine ⟨index, .head h hhead, ?_, legal_ofList hvalid⟩
    unfold GivenBy
    rw [h]
    exact alongScan_ofList hvalid
  | some matrices =>
    obtain ⟨hcount, hlegal⟩ := hfallback matrices rfl
    have hmatrix := List.getElem?_eq_getElem (hcount index hhead)
    rw [Option.bind_some, hmatrix]
    refine ⟨index, .head h hhead, ?_, hlegal index _ hmatrix⟩
    unfold GivenBy
    rw [h]
    exact hmatrix

/-- Every other list leads where the one before it does. -/
theorem back (h : lists[index]? = some none) (hhead : index ∉ heads)
    (hbefore : LeadsTo lists fallback (indexBefore index) matrix) :
    LeadsTo lists fallback index matrix := by
  obtain ⟨source, hwalk, hgiven, hlegal⟩ := hbefore
  exact ⟨source, .back h hhead hwalk, hgiven, sideAt_indexBefore hhead ▸ hlegal⟩

end LeadsTo

/-! ## Finding it without fail -/

/-- The matrix of a list of weights, if they fill one. -/
def placed? (weights : List Nat) : Option Weights :=
  (Weights.ofScan (weights.map fun (weight : Nat) => (weight : Int))).toOption

/-- The matrix of the list after those of `done`, if its weights fill one and the matrix that it
takes over is there. -/
def resolveNext? (fallback : Option (List Weights)) (done : List Weights) :
    Option ScalingList → Option Weights
  | some (.weights values) => placed? values
  | some .useDefault => placed? (defaultList done.length)
  | none =>
    if heads.contains done.length then
      (fallback.bind (·[done.length]?)).or (placed? (defaultList done.length))
    else done[indexBefore done.length]?

/-- The matrices of a parameter set, if all of them are found. -/
def resolve? (matrix : ScalingMatrix) (fallback : Option (List Weights)) : Option (List Weights) :=
  matrix.lists.foldlM (fun done list => return done ++ [← resolveNext? fallback done list]) []

/-! ## One more list -/

theorem resolve_concat (lists : List (Option ScalingList)) (last : Option ScalingList)
    (fallback : Option (List Weights)) :
    resolve { lists := lists ++ [last] } fallback =
      resolve { lists } fallback ++ [resolveNext fallback (resolve { lists } fallback) last] := by
  simp [resolve]

theorem resolve?_concat (lists : List (Option ScalingList)) (last : Option ScalingList)
    (fallback : Option (List Weights)) :
    resolve? { lists := lists ++ [last] } fallback = do
      let done ← resolve? { lists } fallback
      return done ++ [← resolveNext? fallback done last] := by
  simp [resolve?]

theorem placed?_eq {index : Nat} {weights : List Nat}
    (h : (ScalingList.weights weights).Valid (ScalingList.sizeAt index)) :
    placed? weights = some (ofList weights) := by
  rw [placed?, ofScan_ofList h]
  rfl

section

variable {lists : List (Option ScalingList)} {fallback : Option (List Weights)}
  {done : List Weights} {last : Option ScalingList}

/-- The matrix of the next list is found. -/
theorem resolveNext?_eq (fallback : Option (List Weights)) (done : List Weights) {index : Nat}
    (hlast : ∀ list ∈ last, list.Valid (ScalingList.sizeAt index)) :
    resolveNext? fallback done last = some (resolveNext fallback done last) := by
  have hdefault := placed?_eq (valid_defaultList done.length)
  match last with
  | some (.weights values) => exact placed?_eq (hlast _ rfl)
  | some .useDefault => exact hdefault
  | none =>
    unfold resolveNext? resolveNext
    dsimp only
    split
    · rw [hdefault]
      cases fallback.bind (·[done.length]?) <;> rfl
    · rename_i hhead
      have hbefore := indexBefore_lt fun h => hhead (List.contains_iff_mem.mpr h)
      have hthere := List.getElem?_eq_getElem hbefore
      unfold indexBefore at hthere ⊢
      rw [hthere]
      rfl

/-- The way back from the next list leads to its matrix. -/
theorem leadsTo_resolveNext (hfallback : ∀ matrices ∈ fallback, LegalFallback matrices)
    (hdone : ResolvedBy lists fallback done)
    (hlast : ∀ list ∈ last, list.Valid (ScalingList.sizeAt lists.length)) :
    LeadsTo (lists ++ [last]) fallback lists.length (resolveNext fallback done last) := by
  have hhere : (lists ++ [last])[lists.length]? = some last := List.getElem?_concat_length
  match last with
  | some (.weights values) => exact .weights hhere (hlast _ rfl)
  | some .useDefault =>
    unfold resolveNext
    rw [hdone.count]
    exact .useDefault hhere
  | none =>
    unfold resolveNext
    dsimp only
    rw [hdone.count]
    split
    · rename_i hhead
      exact .head hhere (List.contains_iff_mem.mp hhead) hfallback
    · -- the matrix before it is taken over, with the way back that led to it
      rename_i hnot
      have hhead : lists.length ∉ heads := fun h => hnot (List.contains_iff_mem.mpr h)
      obtain ⟨matrix, hmatrix, hleads⟩ := hdone.found _ (indexBefore_lt hhead)
      unfold indexBefore at hmatrix
      rw [hmatrix, Option.getD_some]
      exact .back hhere hhead (hleads.append _)

theorem resolvedBy_concat (hfallback : ∀ matrices ∈ fallback, LegalFallback matrices)
    (hdone : ResolvedBy lists fallback done)
    (hlast : ∀ list ∈ last, list.Valid (ScalingList.sizeAt lists.length)) :
    ResolvedBy (lists ++ [last]) fallback (done ++ [resolveNext fallback done last]) where
  count := by simp [hdone.count]
  found := by
    intro index hindex
    by_cases hlater : index < lists.length
    · obtain ⟨matrix, hmatrix, hleads⟩ := hdone.found index hlater
      refine ⟨matrix, ?_, hleads.append _⟩
      rw [List.getElem?_append_left (hdone.count ▸ hlater), hmatrix]
    · have hend : index = lists.length := by
        rw [List.length_append, List.length_singleton] at hindex
        omega
      subst hend
      refine ⟨_, ?_, leadsTo_resolveNext hfallback hdone hlast⟩
      rw [← hdone.count]
      exact List.getElem?_concat_length

end

/-! ## All lists -/

theorem ValidFrom.getElem {start : Nat} {lists : List (Option ScalingList)}
    (h : ValidFrom start lists) {index : Nat} {list : ScalingList}
    (hlist : lists[index]? = some (some list)) :
    list.Valid (ScalingList.sizeAt (start + index)) := by
  induction lists generalizing start index with
  | nil => cases hlist
  | cons first rest ih =>
    obtain ⟨hfirst, hrest⟩ := h
    cases index with
    | zero => exact hfirst list (Option.some.inj hlist)
    | succ index =>
      have hvalid := ih hrest hlist
      rwa [Nat.add_right_comm] at hvalid

/-- The matrices of valid lists are found, and the way back from each list leads to its matrix. -/
theorem resolvedBy_resolve {count : Nat} {matrix : ScalingMatrix} (h : matrix.Valid count)
    {fallback : Option (List Weights)} (hfallback : ∀ matrices ∈ fallback, LegalFallback matrices) :
    matrix.resolve? fallback = some (matrix.resolve fallback) ∧
      ResolvedBy matrix.lists fallback (matrix.resolve fallback) := by
  obtain ⟨lists⟩ := matrix
  have hvalid : ∀ (index : Nat) (list : ScalingList), lists[index]? = some (some list) →
      list.Valid (ScalingList.sizeAt index) := by
    intro index list hlist
    have := h.lists.getElem hlist
    rwa [Nat.zero_add] at this
  clear h
  induction lists using List.reverseRecOn with
  | nil => exact ⟨rfl, rfl, fun index hindex => absurd hindex (Nat.not_lt_zero index)⟩
  | append_singleton lists last ih =>
    have hearlier : ∀ (index : Nat) (list : ScalingList), lists[index]? = some (some list) →
        list.Valid (ScalingList.sizeAt index) := by
      intro index list hlist
      refine hvalid index list ?_
      rw [List.getElem?_append_left (List.getElem?_eq_some_iff.mp hlist).1, hlist]
    have hlast : ∀ list ∈ last, list.Valid (ScalingList.sizeAt lists.length) := by
      rintro list rfl
      exact hvalid _ list List.getElem?_concat_length
    obtain ⟨hfound, hdone⟩ := ih hearlier
    rw [resolve_concat, resolve?_concat, hfound]
    refine ⟨?_, resolvedBy_concat hfallback hdone hlast⟩
    rw [Option.bind_eq_bind, Option.bind_some, resolveNext?_eq _ _ hlast]
    rfl

end H264.ScalingMatrix
