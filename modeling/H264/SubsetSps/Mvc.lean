import H264.Bits.Element
import H264.Bits.Reader

/-!
# Multiview extension of a sequence parameter set

The views of a multiview stream, the views that each of them refers to, and the levels at which
groups of views can be decoded (H.7.3.2.1.4). The base view refers to no other.
-/

namespace H264

/-- One view and the views it refers to, in anchor pictures and in others. -/
structure MvcView where
  id : Nat
  anchorRefsL0 : List Nat := []
  anchorRefsL1 : List Nat := []
  nonAnchorRefsL0 : List Nat := []
  nonAnchorRefsL1 : List Nat := []
deriving DecidableEq, Repr, Inhabited

/-- One group of views that can be decoded together. -/
structure MvcOperationPoint where
  temporalId : Nat
  targetViewIds : List Nat
  numViewsMinus1 : Nat
deriving DecidableEq, Repr, Inhabited

/-- A level and the groups of views to which it applies. -/
structure MvcLevelValue where
  levelIdc : Nat
  points : List MvcOperationPoint
deriving DecidableEq, Repr, Inhabited

/-- The multiview extension. -/
structure MvcSpsExtension where
  views : List MvcView
  levelValues : List MvcLevelValue
deriving DecidableEq, Repr, Inhabited

namespace MvcSpsExtension

/-- The greatest number of a view, and of further views in any list of views. -/
def maxViewId : Nat := 1023

/-- The most views that a view refers to in one list. -/
def maxRefs : Nat := 15

/-- The most levels but one. -/
def maxLevelValuesMinus1 : Nat := 63

/-- One list of references. -/
def readRefs (countName refName : String) : Read (List Nat) := do
  let count ← Read.ueMax countName maxRefs
  Read.times (Read.ueMax refName maxViewId) count

/-- Both lists of references of anchor pictures. -/
def readAnchorRefs : Read (List Nat × List Nat) :=
  return (← readRefs "num_anchor_refs_l0" "anchor_ref_l0",
          ← readRefs "num_anchor_refs_l1" "anchor_ref_l1")

/-- Both lists of references of other pictures. -/
def readNonAnchorRefs : Read (List Nat × List Nat) :=
  return (← readRefs "num_non_anchor_refs_l0" "non_anchor_ref_l0",
          ← readRefs "num_non_anchor_refs_l1" "non_anchor_ref_l1")

/-- The views with the references that were read for all but the base view. -/
def assemble : (ids : List Nat) → (anchor nonAnchor : List (List Nat × List Nat)) → List MvcView
  | [], _, _ => []
  | base :: others, anchor, nonAnchor =>
    { id := base } :: List.zipWith (fun id (refs : (List Nat × List Nat) × _) =>
      { id
        anchorRefsL0 := refs.1.1
        anchorRefsL1 := refs.1.2
        nonAnchorRefsL0 := refs.2.1
        nonAnchorRefsL1 := refs.2.2 }) others (anchor.zip nonAnchor)

/-- The views: their numbers, then all references of anchor pictures, then all the others. -/
def readViews : Read (List MvcView) := do
  let othersCount ← Read.ueMax "num_views_minus1" maxViewId
  let ids ← Read.times (Read.ueMax "view_id" maxViewId) (othersCount + 1)
  let anchor ← Read.times readAnchorRefs othersCount
  let nonAnchor ← Read.times readNonAnchorRefs othersCount
  return assemble ids anchor nonAnchor

/-- The elements of one list of references. -/
def refElements (refs : List Nat) : List Element :=
  .ue refs.length :: refs.map fun (id : Nat) => .ue id

/-- The elements of the views, the first of which is the base view. -/
def viewElements (views : List MvcView) : List Element :=
  .ue (views.length - 1 : Nat) :: views.map (fun view => .ue view.id) ++
  views.tail.flatMap (fun view => refElements view.anchorRefsL0 ++ refElements view.anchorRefsL1) ++
  views.tail.flatMap
    (fun view => refElements view.nonAnchorRefsL0 ++ refElements view.nonAnchorRefsL1)

/-- One group of views. -/
def readPoint : Read MvcOperationPoint := do
  let temporalId ← Read.bits 3 "applicable_op_temporal_id"
  let targetsMinus1 ← Read.ueMax "applicable_op_num_target_views_minus1" maxViewId
  let targetViewIds ←
    Read.times (Read.ueMax "applicable_op_target_view_id" maxViewId) (targetsMinus1 + 1)
  let numViewsMinus1 ← Read.ueMax "applicable_op_num_views_minus1" maxViewId
  return { temporalId, targetViewIds, numViewsMinus1 }

/-- One level. -/
def readLevelValue : Read MvcLevelValue := do
  let levelIdc ← Read.u8 "level_idc"
  let pointsMinus1 ← Read.ueMax "num_applicable_ops_minus1" maxViewId
  return { levelIdc, points := ← Read.times readPoint (pointsMinus1 + 1) }

/-- The extension. -/
def read : Read MvcSpsExtension := do
  let views ← readViews
  let levelsMinus1 ← Read.ueMax "num_level_values_signalled_minus1" maxLevelValuesMinus1
  return { views, levelValues := ← Read.times readLevelValue (levelsMinus1 + 1) }

/-- The elements of one group of views. -/
def pointElements (point : MvcOperationPoint) : List Element :=
  [.u 3 point.temporalId, .ue (point.targetViewIds.length - 1 : Nat)] ++
  point.targetViewIds.map (fun (id : Nat) => .ue id) ++
  [.ue point.numViewsMinus1]

/-- The elements of one level. -/
def levelElements (level : MvcLevelValue) : List Element :=
  [.u 8 level.levelIdc, .ue (level.points.length - 1 : Nat)] ++ level.points.flatMap pointElements

/-- The elements of the extension. -/
def elements (fields : MvcSpsExtension) : List Element :=
  viewElements fields.views ++
  [.ue (fields.levelValues.length - 1 : Nat)] ++ fields.levelValues.flatMap levelElements

end MvcSpsExtension

end H264
