import H264.Bits.Element
import H264.Bits.Reader
import H264.Slice.Type

/-!
# Prediction weights

Explicit weights and offsets for the pictures of the reference lists. A picture without an entry of
its own has the default weight.
-/

namespace H264

/-- A weight and an offset. -/
structure PredWeight where
  weight : Int
  offset : Int
deriving DecidableEq, Repr, Inhabited

/-- The weights of one picture; chroma has one for each of its planes. -/
structure PredWeightEntry where
  luma : Option PredWeight
  chroma : Option (PredWeight × PredWeight)
deriving DecidableEq, Repr, Inhabited

/-- The weights of both lists and the precision in which they are given. -/
structure PredWeightTable where
  lumaLog2WeightDenom : Nat
  chromaLog2WeightDenom : Option Nat
  l0 : List PredWeightEntry
  l1 : List PredWeightEntry
deriving DecidableEq, Repr, Inhabited

/-- A weight and an offset of `component` in the list `list`. -/
def PredWeight.read (component list : String) : Read PredWeight :=
  return {
    weight := ← Read.seRange s!"{component}_weight_{list}" (-128) 127
    offset := ← Read.seRange s!"{component}_offset_{list}" (-128) 127 }

/-- The weights of one picture of the list `list`. -/
def PredWeightEntry.read (hasChroma : Bool) (list : String) : Read PredWeightEntry := do
  let luma ← Read.flagged s!"luma_weight_{list}_flag" (PredWeight.read "luma" list)
  let chroma ←
    if hasChroma then
      Read.flagged s!"chroma_weight_{list}_flag"
        (return (← PredWeight.read "chroma" list, ← PredWeight.read "chroma" list))
    else pure none
  return { luma, chroma }

/-- The elements of a weight and an offset. -/
def PredWeight.elements (weight : PredWeight) : List Element :=
  [.se weight.weight, .se weight.offset]

/-- The elements of the weights of one picture. -/
def PredWeightEntry.elements (hasChroma : Bool) (entry : PredWeightEntry) : List Element :=
  Element.flagged PredWeight.elements entry.luma ++
  if hasChroma then
    Element.flagged (fun planes => planes.1.elements ++ planes.2.elements) entry.chroma
  else []

namespace PredWeightTable

/-- The weights of a slice that refers to so many pictures, with or without chroma. -/
def read (type : SliceType) (hasChroma : Bool) (l0Count l1Count : Nat) :
    Read PredWeightTable := do
  let lumaLog2WeightDenom ← Read.ueMax "luma_log2_weight_denom" 7
  let chromaLog2WeightDenom ←
    Read.optional hasChroma (Read.ueMax "chroma_log2_weight_denom" 7)
  let l0 ← Read.times (PredWeightEntry.read hasChroma "l0") l0Count
  let l1 ← Read.times (PredWeightEntry.read hasChroma "l1")
    (if type.usesL1 then l1Count else 0)
  return { lumaLog2WeightDenom, chromaLog2WeightDenom, l0, l1 }

/-- The elements of the weights of a slice. -/
def elements (hasChroma : Bool) (table : PredWeightTable) : List Element :=
  [.ue table.lumaLog2WeightDenom] ++
  Element.sent (fun denom => [.ue denom]) table.chromaLog2WeightDenom ++
  (table.l0 ++ table.l1).flatMap (PredWeightEntry.elements hasChroma)

end PredWeightTable

end H264
