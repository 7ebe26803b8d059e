/-!
# Levels

The levels of Annex A with the capacity of their decoded picture buffer. A level is read off
`level_idc`, except for level 1b, which shares the number 11 with level 1.1 in the profiles that
mark it by `constraint_set3_flag`.
-/

namespace H264

/-- The byte of `constraint_setN_flag`s that follows `profile_idc`. -/
structure ConstraintFlags where
  value : Nat
deriving DecidableEq, Repr, Inhabited

namespace ConstraintFlags

/-- The flag `constraint_set(number)_flag`, counted from the most significant bit. -/
def flag (flags : ConstraintFlags) (number : Nat) : Bool :=
  flags.value.testBit (7 - number)

/-- The two reserved low bits. -/
def reservedBits (flags : ConstraintFlags) : Nat :=
  flags.value % 4

end ConstraintFlags

/-- A level of the standard. -/
inductive Level
  | unknown
  | level1
  | level1b
  | level1_1
  | level1_2
  | level1_3
  | level2
  | level2_1
  | level2_2
  | level3
  | level3_1
  | level3_2
  | level4
  | level4_1
  | level4_2
  | level5
  | level5_1
  | level5_2
  | level6
  | level6_1
  | level6_2
deriving DecidableEq, Repr, Inhabited

namespace Level

/-- The level of a `level_idc` alone. -/
def ofIdc : Nat → Level
  | 10 => level1
  | 11 => level1_1
  | 12 => level1_2
  | 13 => level1_3
  | 20 => level2
  | 21 => level2_1
  | 22 => level2_2
  | 30 => level3
  | 31 => level3_1
  | 32 => level3_2
  | 40 => level4
  | 41 => level4_1
  | 42 => level4_2
  | 50 => level5
  | 51 => level5_1
  | 52 => level5_2
  | 60 => level6
  | 61 => level6_1
  | 62 => level6_2
  | _ => unknown

/-- The profiles that tell level 1b from level 1.1 by `constraint_set3_flag`. -/
def level1bFlagIdcs : List Nat := [66, 77, 88]

/-- The level that a profile number, the constraint flags and `level_idc` give together. -/
def select (profileIdc : Nat) (flags : ConstraintFlags) (levelIdc : Nat) : Level :=
  if levelIdc = 9 then level1b
  else if levelIdc = 11 ∧ flags.flag 3 ∧ level1bFlagIdcs.contains profileIdc then level1b
  else ofIdc levelIdc

/-- The symbol that names a level in reports. -/
def symbol : Level → String
  | unknown => "UNKNOWN"
  | level1 => "L1"
  | level1b => "L1B"
  | level1_1 => "L1_1"
  | level1_2 => "L1_2"
  | level1_3 => "L1_3"
  | level2 => "L2"
  | level2_1 => "L2_1"
  | level2_2 => "L2_2"
  | level3 => "L3"
  | level3_1 => "L3_1"
  | level3_2 => "L3_2"
  | level4 => "L4"
  | level4_1 => "L4_1"
  | level4_2 => "L4_2"
  | level5 => "L5"
  | level5_1 => "L5_1"
  | level5_2 => "L5_2"
  | level6 => "L6"
  | level6_1 => "L6_1"
  | level6_2 => "L6_2"

/-- The usual written form of a level. -/
def label : Level → String
  | unknown => "unknown"
  | level1 => "1"
  | level1b => "1b"
  | level1_1 => "1.1"
  | level1_2 => "1.2"
  | level1_3 => "1.3"
  | level2 => "2"
  | level2_1 => "2.1"
  | level2_2 => "2.2"
  | level3 => "3"
  | level3_1 => "3.1"
  | level3_2 => "3.2"
  | level4 => "4"
  | level4_1 => "4.1"
  | level4_2 => "4.2"
  | level5 => "5"
  | level5_1 => "5.1"
  | level5_2 => "5.2"
  | level6 => "6"
  | level6_1 => "6.1"
  | level6_2 => "6.2"

/-- `MaxDpbMbs` of Table A-1, the decoded picture buffer's capacity in macroblocks. -/
def maxDpbMbs : Level → Option Nat
  | unknown => none
  | level1 => some 396
  | level1b => some 396
  | level1_1 => some 900
  | level1_2 => some 2376
  | level1_3 => some 2376
  | level2 => some 2376
  | level2_1 => some 4752
  | level2_2 => some 8100
  | level3 => some 8100
  | level3_1 => some 18000
  | level3_2 => some 20480
  | level4 => some 32768
  | level4_1 => some 32768
  | level4_2 => some 34816
  | level5 => some 110400
  | level5_1 => some 184320
  | level5_2 => some 184320
  | level6 => some 696320
  | level6_1 => some 696320
  | level6_2 => some 696320

end Level

end H264
