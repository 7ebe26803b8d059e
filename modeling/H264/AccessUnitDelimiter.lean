import H264.Nal.Unit
import H264.Slice.Type

/-!
# Access unit delimiters

The unit that starts a picture and tells which slices the picture may hold (7.3.2.4).
-/

namespace H264

/-- The slices that a picture may hold (Table 7-5). -/
inductive PrimaryPicType
  | i
  | iP
  | iPB
  | si
  | siSp
  | iSi
  | iSiPSp
  | iSiPSpB
deriving DecidableEq, Repr, Inhabited

namespace PrimaryPicType

/-- The kind of a `primary_pic_type` of three bits. -/
def ofCode : Nat → PrimaryPicType
  | 0 => i
  | 1 => iP
  | 2 => iPB
  | 3 => si
  | 4 => siSp
  | 5 => iSi
  | 6 => iSiPSp
  | _ => iSiPSpB

/-- The `primary_pic_type` of a kind. -/
def code : PrimaryPicType → Nat
  | i => 0
  | iP => 1
  | iPB => 2
  | si => 3
  | siSp => 4
  | iSi => 5
  | iSiPSp => 6
  | iSiPSpB => 7

/-- The families of slices that may occur. -/
def families : PrimaryPicType → List SliceFamily
  | i => [.i]
  | iP => [.i, .p]
  | iPB => [.i, .p, .b]
  | si => [.si]
  | siSp => [.si, .sp]
  | iSi => [.i, .si]
  | iSiPSp => [.i, .si, .p, .sp]
  | iSiPSpB => [.i, .si, .p, .sp, .b]

/-- The symbol that names a kind: those of its families, joined. -/
def symbol (type : PrimaryPicType) : String :=
  "_".intercalate (type.families.map SliceFamily.symbol)

end PrimaryPicType

/-- An access unit delimiter. -/
structure AccessUnitDelimiter where
  primaryPicType : PrimaryPicType
deriving DecidableEq, Repr, Inhabited

namespace AccessUnitDelimiter

/-- A whole access unit delimiter. -/
def read : Read AccessUnitDelimiter := do
  let primaryPicType := PrimaryPicType.ofCode (← Read.bits 3 "primary_pic_type")
  Read.finishRbsp
  return { primaryPicType }

/-- The access unit delimiter in a unit. -/
def ofUnit (unit : NalUnit) : Except Error AccessUnitDelimiter :=
  unit.readRbsp read

end AccessUnitDelimiter

end H264
