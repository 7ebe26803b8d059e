import H264.Proofs.Scaling.Lists
import H264.Scaling.Weights
import Mathlib.Data.List.Basic
import Mathlib.Data.List.Iterate

/-!
# Lists placed along the zig-zag scan

The scan of a square goes from its corner to the opposite one, up and down its antidiagonals by
turns. `AlongScan` says of a matrix that some weights are those on its way, in order. **Every valid
list is placed so** (`alongScan_ofList`), and fills its matrix (`ofScan_ofList`), so that there is a
weight from 1 to 255 in every place (`Legal`).

* `zigzag_eq_path` — the scan goes from place to place by one step;
* `weightAt?_ofZigzag` — every place of the square has the value that the scan brings to it.
-/

namespace H264.Weights

/-! ## The way of the scan -/

/-- The side of the matrix of the list with an index. -/
def sideAt (index : Nat) : Nat :=
  if index < 6 then 4 else 8

/-- The place `(row, column)` after another one: along the antidiagonal, to the right and up on even
ones, and along the border where that would leave the square. -/
def nextPlace (side : Nat) : Nat × Nat → Nat × Nat
  | (row, column) =>
    if (row + column) % 2 = 0 then
      if column + 1 = side then (row + 1, column) else (row - 1, column + 1)
    else if row + 1 = side then (row, column + 1) else (row + 1, column - 1)

/-- The places of a square in the order of the scan. -/
def path (side : Nat) : List (Nat × Nat) :=
  List.iterate (nextPlace side) (0, 0) (side * side)

theorem side_cases (index : Nat) : sideAt index = 4 ∨ sideAt index = 8 := by
  unfold sideAt
  split
  · exact .inl rfl
  · exact .inr rfl

theorem sizeAt_eq (index : Nat) : ScalingList.sizeAt index = sideAt index * sideAt index := by
  unfold ScalingList.sizeAt sideAt
  split <;> rfl

theorem sideOf_sizeAt (index : Nat) : sideOf (ScalingList.sizeAt index) = sideAt index := by
  unfold ScalingList.sizeAt sideAt
  split <;> rfl

theorem zigzag_eq_path (index : Nat) : zigzag (sideAt index) = path (sideAt index) := by
  rcases side_cases index with hside | hside
  · rw [hside]
    decide
  · rw [hside]
    decide

/-- The scan comes to each place once. -/
theorem nodup_zigzag (index : Nat) : (zigzag (sideAt index)).Nodup := by
  rcases side_cases index with hside | hside
  · rw [hside]
    decide
  · rw [hside]
    decide

theorem mem_zigzag_iff {side : Nat} {place : Nat × Nat} :
    place ∈ zigzag side ↔ place.1 < side ∧ place.2 < side := by
  obtain ⟨row, column⟩ := place
  have hdiagonal : ∀ sum, (row, column) ∈ antidiagonal side sum ↔
      row < side ∧ column < side ∧ row + column = sum := by
    intro sum
    have hrows : ∀ rows : List Nat, (row, column) ∈ (if sum % 2 = 0 then rows.reverse else rows).map
        (fun row => (row, sum - row)) ↔ row ∈ rows ∧ sum - row = column := by
      intro rows
      split <;> simp
    unfold antidiagonal
    rw [hrows]
    simp only [List.mem_filter, List.mem_range, decide_eq_true_eq]
    omega
  unfold zigzag
  simp only [List.mem_flatMap, List.mem_range, hdiagonal]
  constructor
  · rintro ⟨sum, -, hrow, hcolumn, -⟩
    exact ⟨hrow, hcolumn⟩
  · rintro ⟨hrow, hcolumn⟩
    exact ⟨row + column, by omega, hrow, hcolumn, rfl⟩

theorem length_zigzag (index : Nat) :
    (zigzag (sideAt index)).length = ScalingList.sizeAt index := by
  rw [zigzag_eq_path, path, List.length_iterate, sizeAt_eq]

/-! ## Matrices along the scan -/

/-- The weight in a place. -/
def weightAt? (matrix : Weights) (place : Nat × Nat) : Option Int := do
  (← matrix[place.1]?)[place.2]?

/-- A square of weights of one byte, none of them zero. -/
structure Legal (side : Nat) (matrix : Weights) : Prop where
  rows : matrix.length = side
  columns : ∀ row ∈ matrix, row.length = side
  weights : ∀ row ∈ matrix, ∀ weight ∈ row, 1 ≤ weight ∧ weight ≤ 255

/-- A square in which the scan finds these weights, one in each place. -/
structure AlongScan (side : Nat) (values : List Nat) (matrix : Weights) : Prop where
  rows : matrix.length = side
  columns : ∀ row ∈ matrix, row.length = side
  scanned : (path side).map (weightAt? matrix) =
    values.map fun (weight : Nat) => some (weight : Int)

/-- Looking up the keys in order gives the values in order. -/
theorem map_lookup_zip {α β : Type} [BEq α] [LawfulBEq α] {keys : List α} {values : List β}
    (hkeys : keys.Nodup) (hlength : keys.length = values.length) :
    keys.map (fun key => (keys.zip values).lookup key) = values.map some := by
  induction keys generalizing values with
  | nil =>
    rw [List.length_eq_zero_iff.mp hlength.symm]
    rfl
  | cons key keys ih =>
    obtain ⟨value, values, rfl⟩ := List.exists_cons_of_length_eq_add_one hlength.symm
    obtain ⟨hkey, hrest⟩ := List.nodup_cons.mp hkeys
    -- the first pair is none of the later keys
    have hlater : ∀ other ∈ keys, ((key :: keys).zip (value :: values)).lookup other =
        (keys.zip values).lookup other := by
      intro other hother
      have hne : (other == key) = false := beq_eq_false_iff_ne.mpr fun heq => hkey (heq ▸ hother)
      rw [List.zip_cons_cons, List.lookup_cons, hne]
    rw [List.map_cons, List.map_cons, List.map_congr_left hlater, ih hrest (Nat.succ.inj hlength),
      List.zip_cons_cons, List.lookup_cons_self]

variable {index : Nat} {values : List Int}

theorem lookup_zigzag (hlength : values.length = ScalingList.sizeAt index) :
    (zigzag (sideAt index)).map (fun place => ((zigzag (sideAt index)).zip values).lookup place) =
      values.map some :=
  map_lookup_zip (nodup_zigzag index) ((length_zigzag index).trans hlength.symm)

/-- Each place of the square is filled with one of the values. -/
theorem exists_lookup (hlength : values.length = ScalingList.sizeAt index) {row column : Nat}
    (hrow : row < sideAt index) (hcolumn : column < sideAt index) :
    ∃ value ∈ values,
      ((zigzag (sideAt index)).zip values).lookup (row, column) = some value := by
  have hplace : (row, column) ∈ zigzag (sideAt index) := mem_zigzag_iff.mpr ⟨hrow, hcolumn⟩
  have hmem : ((zigzag (sideAt index)).zip values).lookup (row, column) ∈
      (zigzag (sideAt index)).map fun place => ((zigzag (sideAt index)).zip values).lookup place :=
    List.mem_map_of_mem hplace
  rw [lookup_zigzag hlength] at hmem
  obtain ⟨value, hvalue, hfound⟩ := List.mem_map.mp hmem
  exact ⟨value, hvalue, hfound.symm⟩

/-- The value that the scan brings to a place. -/
def valueAt (index : Nat) (values : List Int) (row column : Nat) : Int :=
  (((zigzag (sideAt index)).zip values).lookup (row, column)).getD 0

theorem lookup_eq_valueAt (hlength : values.length = ScalingList.sizeAt index) {row column : Nat}
    (hrow : row < sideAt index) (hcolumn : column < sideAt index) :
    ((zigzag (sideAt index)).zip values).lookup (row, column) =
      some (valueAt index values row column) := by
  obtain ⟨value, -, hfound⟩ := exists_lookup hlength hrow hcolumn
  rw [valueAt, hfound]
  rfl

theorem valueAt_mem (hlength : values.length = ScalingList.sizeAt index) {row column : Nat}
    (hrow : row < sideAt index) (hcolumn : column < sideAt index) :
    valueAt index values row column ∈ values := by
  obtain ⟨value, hvalue, hfound⟩ := exists_lookup hlength hrow hcolumn
  rwa [valueAt, hfound]

/-- A square with the value that the scan brings in each place. -/
theorem ofZigzag_eq (hlength : values.length = ScalingList.sizeAt index) :
    ofZigzag values = (List.range (sideAt index)).map fun row =>
      (List.range (sideAt index)).map (valueAt index values row) := by
  unfold ofZigzag
  rw [hlength, sideOf_sizeAt]
  refine List.map_congr_left fun row hrow => ?_
  refine List.filterMap_eq_map_iff_forall_eq_some.mpr fun column hcolumn => ?_
  exact lookup_eq_valueAt hlength (List.mem_range.mp hrow) (List.mem_range.mp hcolumn)

theorem weightAt?_ofZigzag (hlength : values.length = ScalingList.sizeAt index) {place : Nat × Nat}
    (hplace : place ∈ zigzag (sideAt index)) :
    weightAt? (ofZigzag values) place = ((zigzag (sideAt index)).zip values).lookup place := by
  obtain ⟨row, column⟩ := place
  obtain ⟨hrow, hcolumn⟩ := mem_zigzag_iff.mp hplace
  rw [lookup_eq_valueAt hlength hrow hcolumn, ofZigzag_eq hlength]
  simp [weightAt?, hrow, hcolumn]

theorem forall_mem_ofZigzag (hlength : values.length = ScalingList.sizeAt index) :
    ∀ row ∈ ofZigzag values, row.length = sideAt index ∧ ∀ weight ∈ row, weight ∈ values := by
  rw [ofZigzag_eq hlength]
  intro row hmem
  obtain ⟨place, hplace, rfl⟩ := List.mem_map.mp hmem
  refine ⟨by simp, fun weight hweight => ?_⟩
  obtain ⟨column, hcolumn, rfl⟩ := List.mem_map.mp hweight
  exact valueAt_mem hlength (List.mem_range.mp hplace) (List.mem_range.mp hcolumn)

/-! ## Valid lists -/

section

variable {weights : List Nat} (h : (ScalingList.weights weights).Valid (ScalingList.sizeAt index))
include h

theorem length_values :
    (weights.map fun (weight : Nat) => (weight : Int)).length = ScalingList.sizeAt index := by
  rw [List.length_map]
  exact h.1

/-- A valid list is placed along the scan. -/
theorem alongScan_ofList : AlongScan (sideAt index) weights (ofList weights) where
  rows := by
    rw [ofList, ofZigzag_eq (length_values h)]
    simp
  columns := fun row hrow => (forall_mem_ofZigzag (length_values h) row hrow).1
  scanned := by
    have hlookup := lookup_zigzag (length_values h)
    rw [List.map_map] at hlookup
    rw [← zigzag_eq_path, ofList]
    refine Eq.trans (List.map_congr_left fun place hplace => ?_) hlookup
    exact weightAt?_ofZigzag (length_values h) hplace

theorem legal_ofList : Legal (sideAt index) (ofList weights) where
  rows := (alongScan_ofList h).rows
  columns := (alongScan_ofList h).columns
  weights := by
    intro row hrow weight hweight
    have hmem := (forall_mem_ofZigzag (length_values h) row hrow).2 weight hweight
    obtain ⟨value, hvalue, rfl⟩ := List.mem_map.mp hmem
    have hrange := h.2 value hvalue
    omega

/-- The matrix of some weights, if there is one for each place. -/
theorem ofScan_ofList :
    ofScan (weights.map fun (weight : Nat) => (weight : Int)) = .ok (ofList weights) := by
  have hlength := length_values h
  have hside := sideOf_sizeAt index
  unfold ofScan ofList
  split
  · rename_i value hvalues
    have hone := congrArg List.length hvalues
    rw [hlength] at hone
    unfold ScalingList.sizeAt at hone
    split at hone <;> cases hone
  · rw [hlength, hside, ← sizeAt_eq, if_pos rfl]

end

/-- The default lists are valid. -/
theorem valid_defaultList (index : Nat) :
    (ScalingList.weights (defaultList index)).Valid (ScalingList.sizeAt index) := by
  show (defaultList index).length = ScalingList.sizeAt index ∧
    ∀ weight ∈ defaultList index, 0 < weight ∧ weight < 256
  unfold defaultList ScalingList.sizeAt
  split
  · split <;> decide
  · split <;> decide

/-! ## Flat matrices -/

/-- Some matrices, each with 16 in all of its places. -/
structure AllFlat (count : Nat) (matrices : List Weights) : Prop where
  length : matrices.length = count
  flat : ∀ index, index < count → ∃ matrix, matrices[index]? = some matrix ∧
    Legal (sideAt index) matrix ∧ ∀ row ∈ matrix, ∀ weight ∈ row, weight = 16

theorem allFlat_flat (count : Nat) : AllFlat count (flat count) where
  length := by simp [flat]
  flat := by
    intro index hindex
    have hrows : ∀ row ∈ constant index 16,
        row.length = sideAt index ∧ ∀ weight ∈ row, weight = 16 := by
      intro row hrow
      rw [List.eq_of_mem_replicate hrow]
      exact ⟨List.length_replicate, fun weight => List.eq_of_mem_replicate⟩
    refine ⟨constant index 16, by simp [flat, hindex], ⟨List.length_replicate, ?_, ?_⟩, ?_⟩
    · exact fun row hrow => (hrows row hrow).1
    · intro row hrow weight hweight
      rw [(hrows row hrow).2 weight hweight]
      decide
    · exact fun row hrow => (hrows row hrow).2

end H264.Weights
