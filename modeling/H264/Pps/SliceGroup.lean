import H264.Bits.Element
import H264.Bits.Reader

/-!
# Slice groups

How a picture parameter set divides the map units of a picture into slice groups. Each of the seven
map types carries fields of its own.
-/

namespace H264

/-- The number of bits in which `value - 1` is written, the ceiling of the binary logarithm of a
positive `value`. -/
def ceilLog2 (value : Int) : Nat :=
  let below := (value - 1).natAbs
  if below = 0 then 0 else Nat.log2 below + 1

/-- The corners of a slice group that is a rectangle, as map units in raster order. -/
structure SliceGroupRect where
  topLeft : Nat
  bottomRight : Nat
deriving DecidableEq, Repr, Inhabited

/-- How a pair of slice groups changes from picture to picture. -/
inductive EvolvingMap
  | boxOut
  | rasterScan
  | wipe
deriving DecidableEq, Repr, Inhabited

/-- The map from map units to slice groups. -/
inductive SliceGroupMap
  | interleaved (runLengthsMinus1 : List Nat)
  | dispersed
  | foreground (rectangles : List SliceGroupRect)
  | evolving (kind : EvolvingMap) (changeDirection : Bool) (changeRateMinus1 : Nat)
  | explicit (groupIds : List Nat)
deriving DecidableEq, Repr, Inhabited

/-- The slice groups of a picture, at least two in a parameter set. -/
structure SliceGroups where
  countMinus1 : Int
  map : SliceGroupMap
deriving DecidableEq, Repr, Inhabited

/-- The `slice_group_map_type` of an evolving map. -/
def EvolvingMap.type : EvolvingMap → Nat
  | boxOut => 3
  | rasterScan => 4
  | wipe => 5

namespace SliceGroupMap

/-- The `slice_group_map_type` of a map. -/
def type : SliceGroupMap → Nat
  | interleaved _ => 0
  | dispersed => 1
  | foreground _ => 2
  | evolving kind .. => kind.type
  | explicit _ => 6

/-- The group of one map unit. -/
def readGroupId (countMinus1 : Int) : Read Nat := do
  let id ← Read.bits (ceilLog2 (countMinus1 + 1)) "slice_group_id"
  if countMinus1 < id then throw (.illegal "slice_group_id" id .unstated)
  return id

/-- One rectangle. -/
def readRect : Read SliceGroupRect :=
  return { topLeft := ← Read.ue "top_left", bottomRight := ← Read.ue "bottom_right" }

/-- The fields of an evolving map. -/
def readEvolving (kind : EvolvingMap) : Read SliceGroupMap :=
  return .evolving kind (← Read.flag "slice_group_change_direction_flag")
    (← Read.ue "slice_group_change_rate_minus1")

/-- The map for `countMinus1 + 1` groups; the last group of a foreground map is what the rectangles
leave over. -/
def read (countMinus1 : Int) : Read SliceGroupMap := do
  match ← Read.ueMax "slice_group_map_type" 6 with
  | 0 =>
    return .interleaved (← Read.times (Read.ue "run_length_minus1") (countMinus1 + 1).toNat)
  | 1 => return .dispersed
  | 2 => return .foreground (← Read.times readRect countMinus1.toNat)
  | 3 => readEvolving .boxOut
  | 4 => readEvolving .rasterScan
  | 5 => readEvolving .wipe
  | _ =>
    let sizeMinus1 ← Read.ue "pic_size_in_map_units_minus1"
    return .explicit (← Read.times (readGroupId countMinus1) (sizeMinus1 + 1))

/-- The elements of a map for `countMinus1 + 1` groups. -/
def elements (countMinus1 : Int) (map : SliceGroupMap) : List Element :=
  .ue map.type ::
  match map with
  | interleaved runLengthsMinus1 => runLengthsMinus1.map fun (run : Nat) => .ue run
  | dispersed => []
  | foreground rectangles =>
    rectangles.flatMap fun rect => [.ue rect.topLeft, .ue rect.bottomRight]
  | evolving _ changeDirection changeRateMinus1 => [.flag changeDirection, .ue changeRateMinus1]
  | explicit groupIds =>
    .ue (groupIds.length - 1 : Nat) ::
    groupIds.map fun (id : Nat) => .u (ceilLog2 (countMinus1 + 1)) id

end SliceGroupMap

namespace SliceGroups

/-- The groups, whose number has been read. -/
def read (countMinus1 : Int) : Read SliceGroups :=
  return { countMinus1, map := ← SliceGroupMap.read countMinus1 }

/-- The elements of the groups, after their number. -/
def elements (groups : SliceGroups) : List Element :=
  groups.map.elements groups.countMinus1

/-- The map units by which the groups of an evolving map change from picture to picture. -/
def changeRate? (groups : SliceGroups) : Option Nat :=
  match groups.map with
  | .evolving _ _ changeRateMinus1 => some (changeRateMinus1 + 1)
  | _ => none

end SliceGroups

end H264
