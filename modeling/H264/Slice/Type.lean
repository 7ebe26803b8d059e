import H264.Error

/-!
# Slice types

A slice is of one of five families, and may promise that all slices of its picture are of the same.
-/

namespace H264

/-- How the blocks of a slice are predicted. -/
inductive SliceFamily
  | p
  | b
  | i
  | sp
  | si
deriving DecidableEq, Repr, Inhabited

namespace SliceFamily

/-- The symbol that names a family. -/
def symbol : SliceFamily → String
  | p => "P"
  | b => "B"
  | i => "I"
  | sp => "SP"
  | si => "SI"

/-- The number of a family. -/
def code : SliceFamily → Nat
  | p => 0
  | b => 1
  | i => 2
  | sp => 3
  | si => 4

/-- The family with the number `number % 5`. -/
def ofCode (number : Nat) : SliceFamily :=
  match number % 5 with
  | 0 => p
  | 1 => b
  | 2 => i
  | 3 => sp
  | _ => si

end SliceFamily

/-- The type of a slice. -/
structure SliceType where
  family : SliceFamily
  allSlicesSame : Bool
deriving DecidableEq, Repr, Inhabited

namespace SliceType

/-- The type of a `slice_type`, a number of at most 9. -/
def ofId (id : Int) : Except Error SliceType :=
  if 0 ≤ id ∧ id ≤ 9 then .ok { family := .ofCode id.toNat, allSlicesSame := 5 ≤ id }
  else .error (.illegal "slice_type" id .unstated)

/-- The `slice_type` of a type. -/
def id (type : SliceType) : Nat :=
  type.family.code + if type.allSlicesSame then 5 else 0

/-- Whether no other picture is referred to. -/
def isIntra (type : SliceType) : Bool :=
  type.family == .i || type.family == .si

/-- Whether one list of other pictures is used at least. -/
def usesL0 (type : SliceType) : Bool :=
  type.family == .p || type.family == .sp || type.family == .b

/-- Whether two lists of other pictures are used. -/
def usesL1 (type : SliceType) : Bool :=
  type.family == .b

end SliceType

/-- Whether a slice belongs to a frame or to one of its fields. -/
inductive PictureStructure
  | frame
  | topField
  | bottomField
deriving DecidableEq, Repr, Inhabited

namespace PictureStructure

/-- The symbol that names a structure. -/
def symbol : PictureStructure → String
  | frame => "FRAME"
  | topField => "TOP_FIELD"
  | bottomField => "BOTTOM_FIELD"

end PictureStructure

end H264
