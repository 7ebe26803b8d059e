import H264.Proofs.Bits.ReadBack
import H264.SubsetSps.Mvc
import H264.SubsetSps.Svc
import Mathlib.Tactic.MkIffOfInductiveProp

/-!
# Valid extensions of sequence parameter sets

Which scalable and multiview extensions are valid, and that their elements read back.

The scalable extension leaves out what a chroma format or a reference layer of the same size makes
superfluous; what is left out has its inferred value. The multiview extension sends the references
of all views but the base view in two rounds, first those of anchor pictures and then the others.
`MvcSpsExtension.assemble_map` says that they are put together view by view.
-/

namespace H264

/-! ## Scalable extension -/

namespace SvcSpsExtension

/-- Chroma phases that are sent in a part which is there or not: a phase that is not sent has its
inferred value. -/
structure ValidPhases (arrayType : Nat) (sent : Bool) (phaseX : Bool) (phaseY : Nat) : Prop where
  inferredX : (sent && hasPhaseX arrayType) = false → phaseX = false
  inferredY : (sent && hasPhaseY arrayType) = false → phaseY = inferredPhaseY arrayType
  phaseY_lt : phaseY < 4

/-- A valid offset, which is zero if it is not sent. -/
structure ValidOffset (sent : Bool) (offset : Int) : Prop where
  range : -Codeword.maxSigned ≤ offset ∧ offset ≤ Codeword.maxSigned
  inferred : sent = false → offset = 0

/-- Whether a reference layer of any size may be used, so that its place is sent. -/
def sendsRefLayer (fields : SvcSpsExtension) : Bool :=
  fields.extendedSpatialScalabilityIdc == 1

/-- A valid extension of a sequence with the given `ChromaArrayType`. -/
structure Valid (arrayType : Nat) (fields : SvcSpsExtension) : Prop where
  extendedSpatialScalabilityIdc : fields.extendedSpatialScalabilityIdc < 4
  phases : ValidPhases arrayType true fields.chromaPhaseXPlus1 fields.chromaPhaseYPlus1
  refLayerPhases : ValidPhases arrayType fields.sendsRefLayer fields.refLayerChromaPhaseXPlus1
    fields.refLayerChromaPhaseYPlus1
  left : ValidOffset fields.sendsRefLayer fields.scaledRefLayerLeftOffset
  top : ValidOffset fields.sendsRefLayer fields.scaledRefLayerTopOffset
  right : ValidOffset fields.sendsRefLayer fields.scaledRefLayerRightOffset
  bottom : ValidOffset fields.sendsRefLayer fields.scaledRefLayerBottomOffset
  adaptiveTcoeffLevelPrediction :
    fields.tcoeffLevelPrediction = false → fields.adaptiveTcoeffLevelPrediction = false

theorem readsBack_phaseX {arrayType : Nat} {sent phaseX : Bool} {phaseY : Nat} (name : String)
    (h : ValidPhases arrayType sent phaseX phaseY) :
    ReadsBack (if (sent && hasPhaseX arrayType) = true then Read.flag name else Pure.pure false)
      (if (sent && hasPhaseX arrayType) = true then [.flag phaseX] else []) phaseX :=
  .sentIf (fun _ => .flag _ _) h.inferredX

theorem readsBack_phaseY {arrayType : Nat} {sent phaseX : Bool} {phaseY : Nat} (name : String)
    (h : ValidPhases arrayType sent phaseX phaseY) :
    ReadsBack (if (sent && hasPhaseY arrayType) = true then Read.bits 2 name
        else Pure.pure (inferredPhaseY arrayType))
      (if (sent && hasPhaseY arrayType) = true then [.u 2 phaseY] else []) phaseY :=
  .sentIf (fun _ => .bits _ (by decide) h.phaseY_lt) h.inferredY

theorem readsBack_offset {sent : Bool} {offset : Int} (name : String)
    (h : ValidOffset sent offset) :
    ReadsBack (if sent = true then Read.se name else Pure.pure 0)
      (if sent = true then [.se offset] else []) offset :=
  .sentIf (fun _ => .se _ h.range) h.inferred

/-- What a reference layer adds, each element by itself. -/
theorem refLayerElements_sent (arrayType : Nat) (fields : SvcSpsExtension) :
    (if fields.extendedSpatialScalabilityIdc = 1 then refLayerElements arrayType fields else []) =
      (if (fields.sendsRefLayer && hasPhaseX arrayType) = true
        then [.flag fields.refLayerChromaPhaseXPlus1] else []) ++
      (if (fields.sendsRefLayer && hasPhaseY arrayType) = true
        then [.u 2 fields.refLayerChromaPhaseYPlus1] else []) ++
      (if fields.sendsRefLayer = true then [.se fields.scaledRefLayerLeftOffset] else []) ++
      (if fields.sendsRefLayer = true then [.se fields.scaledRefLayerTopOffset] else []) ++
      (if fields.sendsRefLayer = true then [.se fields.scaledRefLayerRightOffset] else []) ++
      (if fields.sendsRefLayer = true then [.se fields.scaledRefLayerBottomOffset] else []) := by
  by_cases hsent : fields.extendedSpatialScalabilityIdc = 1
  · have hflag : fields.sendsRefLayer = true := beq_iff_eq.mpr hsent
    simp [hsent, hflag, refLayerElements, phaseElements]
  · have hflag : fields.sendsRefLayer = false := beq_eq_false_iff_ne.mpr hsent
    simp [hsent, hflag]

/-- The elements of a valid scalable extension read back. -/
theorem readsBack {arrayType : Nat} {fields : SvcSpsExtension} (h : fields.Valid arrayType) :
    ReadsBack (read arrayType) (fields.elements arrayType) fields := by
  have hadaptive : ReadsBack
      (if fields.tcoeffLevelPrediction = true then Read.flag "adaptive_tcoeff_level_prediction_flag"
        else Pure.pure false)
      (if fields.tcoeffLevelPrediction = true then [.flag fields.adaptiveTcoeffLevelPrediction]
        else []) fields.adaptiveTcoeffLevelPrediction :=
    .sentIf (fun _ => .flag _ _) h.adaptiveTcoeffLevelPrediction
  unfold read elements
  rw [refLayerElements_sent]
  simp only [phaseElements, List.cons_append, List.nil_append, List.append_assoc]
  refine .cons (.flag _ _) <| .cons (.bits _ (by decide) h.extendedSpatialScalabilityIdc) ?_
  refine .bind (readsBack_phaseX _ h.phases) <| .bind (readsBack_phaseY _ h.phases) ?_
  -- each field of the reference layer is sent or inferred by itself
  refine .bind (readsBack_phaseX _ h.refLayerPhases) ?_
  refine .bind (readsBack_phaseY _ h.refLayerPhases) ?_
  refine .bind (readsBack_offset _ h.left) <| .bind (readsBack_offset _ h.top) ?_
  refine .bind (readsBack_offset _ h.right) <| .bind (readsBack_offset _ h.bottom) ?_
  refine .cons (.flag _ _) <| .branch hadaptive ?_
  exact .cons (.flag _ _) <| .cons (.flag _ _) <| .pure _

end SvcSpsExtension

/-! ## Multiview extension -/

namespace MvcSpsExtension

/-- Valid references of a view in one list. -/
@[mk_iff]
structure ValidRefs (refs : List Nat) : Prop where
  count : refs.length ≤ maxRefs
  ids : ∀ id ∈ refs, id ≤ maxViewId

/-- A valid view. -/
@[mk_iff]
structure ValidView (view : MvcView) : Prop where
  id : view.id ≤ maxViewId
  anchorRefsL0 : ValidRefs view.anchorRefsL0
  anchorRefsL1 : ValidRefs view.anchorRefsL1
  nonAnchorRefsL0 : ValidRefs view.nonAnchorRefsL0
  nonAnchorRefsL1 : ValidRefs view.nonAnchorRefsL1

/-- Valid views: at least the base view, which is the first and refers to no other. -/
@[mk_iff]
structure ValidViews (views : List MvcView) : Prop where
  count : 1 ≤ views.length ∧ views.length ≤ maxViewId + 1
  base : ∀ base ∈ views.head?, base = { id := base.id }
  views : ∀ view ∈ views, ValidView view

/-- A valid group of views: it has at least one target. -/
@[mk_iff]
structure ValidPoint (point : MvcOperationPoint) : Prop where
  temporalId : point.temporalId < 8
  targetCount : 1 ≤ point.targetViewIds.length ∧ point.targetViewIds.length ≤ maxViewId + 1
  targets : ∀ id ∈ point.targetViewIds, id ≤ maxViewId
  numViewsMinus1 : point.numViewsMinus1 ≤ maxViewId

/-- A valid level: it applies to at least one group of views. -/
@[mk_iff]
structure ValidLevel (level : MvcLevelValue) : Prop where
  levelIdc : level.levelIdc < 256
  pointCount : 1 ≤ level.points.length ∧ level.points.length ≤ maxViewId + 1
  points : ∀ point ∈ level.points, ValidPoint point

/-- A valid multiview extension. -/
@[mk_iff]
structure Valid (fields : MvcSpsExtension) : Prop where
  views : ValidViews fields.views
  levelCount : 1 ≤ fields.levelValues.length ∧
    fields.levelValues.length ≤ maxLevelValuesMinus1 + 1
  levels : ∀ level ∈ fields.levelValues, ValidLevel level

instance (refs : List Nat) : Decidable (ValidRefs refs) :=
  decidable_of_iff' _ (validRefs_iff refs)

instance (view : MvcView) : Decidable (ValidView view) :=
  decidable_of_iff' _ (validView_iff view)

instance (views : List MvcView) : Decidable (ValidViews views) :=
  decidable_of_iff' _ (validViews_iff views)

instance (point : MvcOperationPoint) : Decidable (ValidPoint point) :=
  decidable_of_iff' _ (validPoint_iff point)

instance (level : MvcLevelValue) : Decidable (ValidLevel level) :=
  decidable_of_iff' _ (validLevel_iff level)

instance (fields : MvcSpsExtension) : Decidable fields.Valid :=
  decidable_of_iff' _ (valid_iff fields)

/-! ### Views -/

theorem readsBack_refs {refs : List Nat} (countName refName : String) (h : ValidRefs refs) :
    ReadsBack (readRefs countName refName) (refElements refs) refs := by
  unfold readRefs refElements
  rw [List.map_eq_flatMap]
  refine .cons (.ueMax _ h.count (by decide)) <| .times rfl ?_
  intro id hid
  exact .ueMax _ (h.ids id hid) (by decide)

/-- The references of a view in anchor pictures, in both lists. -/
def anchorRefs (view : MvcView) : List Nat × List Nat :=
  (view.anchorRefsL0, view.anchorRefsL1)

/-- The references of a view in other pictures, in both lists. -/
def nonAnchorRefs (view : MvcView) : List Nat × List Nat :=
  (view.nonAnchorRefsL0, view.nonAnchorRefsL1)

/-- The elements of the references of one view in both lists. -/
def bothElements (refs : List Nat × List Nat) : List Element :=
  refElements refs.1 ++ refElements refs.2

theorem readsBack_anchorRefs {view : MvcView} (h : ValidView view) :
    ReadsBack readAnchorRefs (bothElements (anchorRefs view)) (anchorRefs view) := by
  unfold readAnchorRefs bothElements
  refine .bind (readsBack_refs _ _ h.anchorRefsL0) <| .of_append_nil ?_
  exact .bind (readsBack_refs _ _ h.anchorRefsL1) <| .pure _

theorem readsBack_nonAnchorRefs {view : MvcView} (h : ValidView view) :
    ReadsBack readNonAnchorRefs (bothElements (nonAnchorRefs view)) (nonAnchorRefs view) := by
  unfold readNonAnchorRefs bothElements
  refine .bind (readsBack_refs _ _ h.nonAnchorRefsL0) <| .of_append_nil ?_
  exact .bind (readsBack_refs _ _ h.nonAnchorRefsL1) <| .pure _

/-- **References that were sent apart from their views** come back to them: the `k`-th of each round
belong to the `k`-th view after the base view. -/
theorem assemble_map {base : MvcView} (hbase : base = { id := base.id }) (others : List MvcView) :
    assemble ((base :: others).map MvcView.id) (others.map anchorRefs) (others.map nonAnchorRefs) =
      base :: others := by
  unfold assemble
  rw [List.map_cons]
  show MvcView.mk base.id [] [] [] [] :: _ = base :: others
  rw [← hbase]
  congr 1
  induction others with
  | nil => rfl
  | cons view others ih =>
    -- each view takes the first references of both rounds and leaves the others to those behind it
    simp only [List.map_cons, List.zip_cons_cons, List.zipWith_cons_cons, ih]
    rfl

theorem readsBack_views {views : List MvcView} (h : ValidViews views) :
    ReadsBack readViews (viewElements views) views := by
  cases views with
  | nil => exact absurd h.count.1 (by simp)
  | cons base others =>
    have hmost : others.length ≤ maxViewId := Nat.le_of_succ_le_succ h.count.2
    have hothers : ∀ view ∈ others, ValidView view :=
      fun view hmem => h.views view (List.mem_cons_of_mem _ hmem)
    have hids : ReadsBack (Read.times (Read.ueMax "view_id" maxViewId) (others.length + 1))
        ((base :: others).map fun view => .ue view.id) ((base :: others).map MvcView.id) := by
      rw [List.map_eq_flatMap]
      apply @ReadsBack.times_map _ _ _ (fun (id : Nat) => [.ue id]) MvcView.id (base :: others)
      intro view hview
      exact .ueMax _ (h.views view hview).id (by decide)
    have hanchor := ReadsBack.times_map fun view hview => readsBack_anchorRefs (hothers view hview)
    have hnonAnchor :=
      ReadsBack.times_map fun view hview => readsBack_nonAnchorRefs (hothers view hview)
    -- the identifiers of all views come first, and then the two rounds
    unfold readViews viewElements
    simp only [List.cons_append, List.append_assoc]
    refine .cons (.ueMax _ hmost (by decide)) <| .bind hids <| .bind hanchor ?_
    refine .of_append_nil <| .bind hnonAnchor ?_
    rw [assemble_map (h.base base rfl)]
    exact .pure _

/-! ### Levels -/

theorem readsBack_point {point : MvcOperationPoint} (h : ValidPoint point) :
    ReadsBack readPoint (pointElements point) point := by
  obtain ⟨hsome, hmost⟩ := h.targetCount
  unfold readPoint pointElements
  rw [List.map_eq_flatMap]
  simp only [List.cons_append, List.nil_append]
  refine .cons (.bits _ (by decide) h.temporalId) ?_
  refine .cons (.ueMax _ (Nat.sub_le_of_le_add hmost) (by decide)) ?_
  refine .bind (.times (Nat.sub_add_cancel hsome).symm ?_) ?_
  · intro id hid
    exact .ueMax _ (h.targets id hid) (by decide)
  · exact .cons (.ueMax _ h.numViewsMinus1 (by decide)) <| .pure _

theorem readsBack_level {level : MvcLevelValue} (h : ValidLevel level) :
    ReadsBack readLevelValue (levelElements level) level := by
  obtain ⟨hsome, hmost⟩ := h.pointCount
  unfold readLevelValue levelElements
  simp only [List.cons_append, List.nil_append]
  refine .cons (.u8 _ h.levelIdc) ?_
  refine .cons (.ueMax _ (Nat.sub_le_of_le_add hmost) (by decide)) <| .of_append_nil ?_
  refine .bind (.times (Nat.sub_add_cancel hsome).symm ?_) <| .pure _
  intro point hpoint
  exact readsBack_point (h.points point hpoint)

/-- The elements of a valid multiview extension read back. -/
theorem readsBack {fields : MvcSpsExtension} (h : fields.Valid) :
    ReadsBack read fields.elements fields := by
  obtain ⟨hsome, hmost⟩ := h.levelCount
  unfold read elements
  rw [List.append_assoc]
  refine .bind (readsBack_views h.views) ?_
  refine .cons (.ueMax _ (Nat.sub_le_of_le_add hmost) (by decide)) <| .of_append_nil ?_
  refine .bind (.times (Nat.sub_add_cancel hsome).symm ?_) <| .pure _
  intro level hlevel
  exact readsBack_level (h.levels level hlevel)

end MvcSpsExtension

end H264
