import H264.Error
import H264.Scaling.Basic

/-!
# Weight matrices

The square matrices that scaling lists stand for. A list is placed along the zig-zag scan; where a
list was not sent, the one before it of its kind is used, and the first of a kind falls back to the
sequence's matrix or to the default table.
-/

namespace H264

/-- A square matrix, a list of rows. The weights of a list are positive; those that a caller gives
to fall back to may be any. -/
abbrev Weights := List (List Int)

namespace Weights

/-! ## The zig-zag scan -/

/-- The positions `(row, column)` on the antidiagonal `row + column = sum` of a square of side
`side`, in scan order: upwards on even antidiagonals, downwards on odd ones. -/
def antidiagonal (side sum : Nat) : List (Nat × Nat) :=
  let rows := (List.range side).filter fun row => row ≤ sum ∧ sum - row < side
  (if sum % 2 = 0 then rows.reverse else rows).map fun row => (row, sum - row)

/-- The positions of a square of side `side` in zig-zag order. -/
def zigzag (side : Nat) : List (Nat × Nat) :=
  (List.range (2 * side - 1)).flatMap (antidiagonal side)

/-- The side of the square that a list of so many values fills. -/
def sideOf (count : Nat) : Nat :=
  if count = 16 then 4 else 8

/-- The matrix whose zig-zag scan is `values`. -/
def ofZigzag (values : List Int) : Weights :=
  let side := sideOf values.length
  let placed := (zigzag side).zip values
  (List.range side).map fun row =>
    (List.range side).filterMap fun column => placed.lookup (row, column)

/-- The matrix of the values that a caller gives: as many as there are positions, or a single one
for all of them. -/
def ofScan (values : List Int) : Except Misuse Weights :=
  let positions := sideOf values.length * sideOf values.length
  match values with
  | [value] => .ok (ofZigzag (List.replicate positions value))
  | values =>
    if values.length = positions then .ok (ofZigzag values)
    else .error (.scanLength values.length positions)

/-! ## Tables -/

/-- Table 7-3, 4x4 blocks predicted from their own picture. -/
def default4x4Intra : List Nat :=
  [6, 13, 13, 20, 20, 20, 28, 28, 28, 28, 32, 32, 32, 37, 37, 42]

/-- Table 7-3, 4x4 blocks predicted from other pictures. -/
def default4x4Inter : List Nat :=
  [10, 14, 14, 20, 20, 20, 24, 24, 24, 24, 27, 27, 27, 30, 30, 34]

/-- Table 7-4, 8x8 blocks predicted from their own picture. -/
def default8x8Intra : List Nat :=
  [6, 10, 10, 13, 11, 13, 16, 16, 16, 16, 18, 18, 18, 18, 18, 23,
   23, 23, 23, 23, 23, 25, 25, 25, 25, 25, 25, 25, 27, 27, 27, 27,
   27, 27, 27, 27, 29, 29, 29, 29, 29, 29, 29, 31, 31, 31, 31, 31,
   31, 33, 33, 33, 33, 33, 36, 36, 36, 36, 38, 38, 38, 40, 40, 42]

/-- Table 7-4, 8x8 blocks predicted from other pictures. -/
def default8x8Inter : List Nat :=
  [9, 13, 13, 15, 13, 15, 17, 17, 17, 17, 19, 19, 19, 19, 19, 21,
   21, 21, 21, 21, 21, 22, 22, 22, 22, 22, 22, 22, 24, 24, 24, 24,
   24, 24, 24, 24, 25, 25, 25, 25, 25, 25, 25, 27, 27, 27, 27, 27,
   27, 28, 28, 28, 28, 28, 30, 30, 30, 30, 32, 32, 32, 33, 33, 35]

/-- The default list of an index, in zig-zag order. -/
def defaultList (index : Nat) : List Nat :=
  if index < 6 then
    if index < 3 then default4x4Intra else default4x4Inter
  else if index % 2 = 0 then default8x8Intra else default8x8Inter

/-- The matrix of a list of weights. -/
def ofList (weights : List Nat) : Weights :=
  ofZigzag (weights.map fun (weight : Nat) => (weight : Int))

/-- The matrix of an index with one weight everywhere. -/
def constant (index : Nat) (weight : Int) : Weights :=
  let side := if index < 6 then 4 else 8
  List.replicate side (List.replicate side weight)

/-- The matrices that hold where no scaling lists are sent. -/
def flat (count : Nat) : List Weights :=
  (List.range count).map fun index => constant index 16

end Weights

namespace ScalingMatrix

/-- The indices whose list falls back to the sequence or the default when it is not sent. -/
def heads : List Nat := [0, 3, 6, 7]

/-- The matrix of the list with index `done.length`, after the matrices `done`. -/
def resolveNext (fallback : Option (List Weights)) (done : List Weights) :
    Option ScalingList → Weights
  | some (.weights values) => Weights.ofList values
  | some .useDefault => Weights.ofList (Weights.defaultList done.length)
  | none =>
    let index := done.length
    if heads.contains index then
      (fallback.bind (·[index]?)).getD (Weights.ofList (Weights.defaultList index))
    else (done[if index < 6 then index - 1 else index - 2]?).getD []

/-- The matrices of a parameter set; `fallback` are the sequence's, if it sent any. -/
def resolve (matrix : ScalingMatrix) (fallback : Option (List Weights)) : List Weights :=
  matrix.lists.foldl (fun done list => done ++ [resolveNext fallback done list]) []

end ScalingMatrix

end H264
