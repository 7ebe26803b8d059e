import H264.Pps.Basic
import H264.SubsetSps.Basic

/-!
# The parameter sets of a stream

A stream's parameter sets by kind and identifier. Storing one replaces what had its identifier and
keeps its place; a new one goes to the end. `find_store` says what a look-up gives after a store.
-/

namespace H264

/-! ## Tables by number -/

/-- Entries by number, in the order in which their numbers first came. -/
abbrev Table (α : Type) := List (Nat × α)

namespace Table

variable {α : Type}

/-- The entry of a number. -/
def find? (table : Table α) (id : Nat) : Option α :=
  List.lookup id table

/-- The table with an entry replaced in its place, or added at the end. -/
def store (table : Table α) (id : Nat) (entry : α) : Table α :=
  match table with
  | [] => [(id, entry)]
  | (other, old) :: rest =>
    if other = id then (id, entry) :: rest else (other, old) :: store rest id entry

/-- The numbers in order. -/
def ids (table : Table α) : List Nat :=
  table.map Prod.fst

theorem find_store (table : Table α) (id key : Nat) (entry : α) :
    (table.store id entry).find? key = if key = id then some entry else table.find? key := by
  unfold find?
  induction table with
  | nil =>
    by_cases h : key = id
    · simp [store, h]
    · simp [store, List.lookup_cons, beq_eq_false_iff_ne.mpr h, h]
  | cons first rest ih =>
    obtain ⟨other, old⟩ := first
    unfold store
    by_cases ho : other = id
    · subst ho
      by_cases h : key = other
      · simp [h]
      · simp [List.lookup_cons, beq_eq_false_iff_ne.mpr h, h]
    · simp only [if_neg ho, List.lookup_cons, ih]
      by_cases h : key = other
      · simp [h, ho]
      · simp [beq_eq_false_iff_ne.mpr h]

end Table

/-! ## Parameter sets -/

/-- The parameter sets known so far. -/
structure ParamSets where
  sps : Table SeqParameterSet := []
  pps : Table PicParameterSet := []
  subsetSps : Table SubsetSps := []
deriving Repr, Inhabited

/-- What a caller gives as the identifier to look up. -/
inductive LookupKey
  | number (id : Int)
  | sps (id : Nat)
  | pps (id : Nat)
  | foreign (typeName : String)
deriving DecidableEq, Repr

namespace LookupKey

/-- The name of the identifiers of sequence parameter sets in errors. -/
def spsTypeName : String := "SeqParamSetId"

/-- The name of the identifiers of picture parameter sets in errors. -/
def ppsTypeName : String := "PicParamSetId"

/-- The number that a key for a sequence parameter set stands for. -/
def spsId : LookupKey → Except Error Int
  | number id => .ok id
  | sps id => .ok id
  | pps _ => .error (.wrongKey spsTypeName ppsTypeName)
  | foreign typeName => .error (.wrongKey spsTypeName typeName)

/-- The number that a key for a picture parameter set stands for. -/
def ppsId : LookupKey → Except Error Int
  | number id => .ok id
  | pps id => .ok id
  | sps _ => .error (.wrongKey ppsTypeName spsTypeName)
  | foreign typeName => .error (.wrongKey ppsTypeName typeName)

end LookupKey

namespace ParamSets

variable (sets : ParamSets)

/-! ## Storing -/

/-- The sets with a sequence parameter set stored. -/
def storeSps (sps : SeqParameterSet) : ParamSets :=
  { sets with sps := sets.sps.store sps.id sps }

/-- The sets with a picture parameter set stored. -/
def storePps (pps : PicParameterSet) : ParamSets :=
  { sets with pps := sets.pps.store pps.id pps }

/-- The sets with a subset sequence parameter set stored. -/
def storeSubsetSps (subset : SubsetSps) : ParamSets :=
  { sets with subsetSps := sets.subsetSps.store subset.id subset }

/-! ## Looking up -/

/-- The sequence parameter set of an identifier. -/
def sps? (id : Nat) : Option SeqParameterSet := sets.sps.find? id

/-- The picture parameter set of an identifier. -/
def pps? (id : Nat) : Option PicParameterSet := sets.pps.find? id

/-- The subset sequence parameter set of an identifier. -/
def subsetSps? (id : Nat) : Option SubsetSps := sets.subsetSps.find? id

/-- The entry of a number in a table, or the error that there is none. -/
def findIn {α : Type} (kind : ParamSetKind) (table : Table α) (id : Int) : Except Error α :=
  match (if 0 ≤ id then table.find? id.toNat else none) with
  | some entry => .ok entry
  | none => .error (.notFound kind (.number id))

/-- The sequence parameter set of a caller's key. -/
def getSps (key : LookupKey) : Except Error SeqParameterSet := do
  findIn .sps sets.sps (← key.spsId)

/-- The picture parameter set of a caller's key. -/
def getPps (key : LookupKey) : Except Error PicParameterSet := do
  findIn .pps sets.pps (← key.ppsId)

/-- The subset sequence parameter set of a caller's key. -/
def getSubsetSps (key : LookupKey) : Except Error SubsetSps := do
  findIn .subsetSps sets.subsetSps (← key.spsId)

/-! ## Summary -/

/-- Numbers in brackets, smallest first. -/
def sortedText (ids : List Nat) : String :=
  let sorted := ids.mergeSort (· ≤ ·)
  "[" ++ ", ".intercalate (sorted.map toString) ++ "]"

/-- The identifiers known, in one line. -/
def summary : String :=
  s!"Context(sps={sortedText sets.sps.ids}, pps={sortedText sets.pps.ids}, " ++
    s!"subset_sps={sortedText sets.subsetSps.ids})"

end ParamSets

end H264
