import H264.Bits.Element
import H264.Bits.Reader

/-!
# Scaling lists

The weights of a quantiser, as parameter sets carry them: a list is the default marker or holds a
weight for each of 16 or 64 positions in zig-zag order, and is sent as differences, from 16 on,
between successive weights modulo 256. A weight of zero is never meant: in the first place it marks
the default, later it says that the last weight repeats up to the end.
-/

namespace H264

/-- A scaling list as sent: the default marker, or weights in zig-zag order. -/
inductive ScalingList
  | useDefault
  | weights (values : List Nat)
deriving DecidableEq, Repr, Inhabited

/-- The scaling lists of a parameter set; `none` where a list was not sent. -/
structure ScalingMatrix where
  lists : List (Option ScalingList)
deriving DecidableEq, Repr, Inhabited

namespace ScalingList

/-- The number of positions of the list with an index: 4x4 blocks before 8x8 blocks. -/
def sizeAt (index : Nat) : Nat :=
  if index < 6 then 16 else 64

/-- The weight before the first one. -/
def initialWeight : Nat := 16

/-- The next weight, zero included, after `last`. -/
def readNext (last : Nat) : Read Nat := do
  let delta ← Read.se "delta_scale"
  unless -128 ≤ delta ∧ delta ≤ 127 do throw (.illegal "delta_scale" delta .unstated)
  return ((last + delta + 256) % 256).toNat

/-- The `count` weights after `last`, once `repeating` all the same. -/
def readWeights : (last : Nat) → (repeating : Bool) → (count : Nat) → Read (List Nat)
  | _, _, 0 => return []
  | last, true, count + 1 => return last :: (← readWeights last true count)
  | last, false, count + 1 => do
    let next ← readNext last
    if next = 0 then return last :: (← readWeights last true count)
    return next :: (← readWeights next false count)

/-- A list of `size` positions. -/
def read : (size : Nat) → Read ScalingList
  | 0 => return .weights []
  | size + 1 => do
    let first ← readNext initialWeight
    if first = 0 then return .useDefault
    return .weights (first :: (← readWeights first false size))

/-- The difference of least size that leads from `last` to `next` modulo 256. -/
def delta (last next : Nat) : Int :=
  Int.bmod (next - last) 256

/-- The elements of the `count` weights `values` after `last`, one for each. -/
def weightElements : (last : Nat) → (values : List Nat) → List Element
  | _, [] => []
  | last, next :: values => .se (delta last next) :: weightElements next values

/-- The elements of a list: the default marker is a first weight of zero. -/
def elements : ScalingList → List Element
  | useDefault => weightElements initialWeight [0]
  | weights values => weightElements initialWeight values

end ScalingList

namespace ScalingMatrix

/-- The lists from `index` on, each after a flag that says whether it was sent. -/
def readFrom : (index count : Nat) → Read (List (Option ScalingList))
  | _, 0 => return []
  | index, count + 1 => do
    let first ← Read.flagged "scaling_list_present_flag"
      (ScalingList.read (ScalingList.sizeAt index))
    return first :: (← readFrom (index + 1) count)

/-- The matrix of `count` lists. -/
def read (count : Nat) : Read ScalingMatrix :=
  return { lists := ← readFrom 0 count }

/-- The elements of a matrix, each list after its flag. -/
def elements (matrix : ScalingMatrix) : List Element :=
  matrix.lists.flatMap (Element.flagged ScalingList.elements)

end ScalingMatrix

end H264
