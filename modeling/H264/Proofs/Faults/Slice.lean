import H264.Proofs.Faults.Units
import H264.Slice.Header

/-!
# Reading slice headers

All of a slice header but its change cycle fails only with errors that a stream can cause
(`yields_readBody`). The width of the change cycle follows from the size of a picture and the rate
at which its slice groups evolve, and nothing bounds it: `readBody_eq` splits a header at that field.
-/

namespace H264

open Read

namespace SliceHeader

/-! ## Parts of the header -/

theorem checked_readType (form : SliceForm) : Checked (readType form) := by
  unfold readType
  refine .bind (checked_ue _) fun number => ?_
  have htype : CheckedOutcome (SliceType.ofId number) := .ite (.ok _) (.fail rfl)
  exact .bind (checked_ofExcept htype) fun type => .guard rfl (.pure type)

theorem checked_readColourPlaneId : Checked readColourPlaneId := by
  unfold readColourPlaneId
  exact .bind (checked_bits (by decide) _) fun id => .guard rfl (.pure id)

theorem checked_readStructure (sps : SeqParameterSet) : Checked (readStructure sps) := by
  unfold readStructure
  refine .ite (.pure _) (.bind (checked_flag _) fun field => .ite ?_ (.pure _))
  exact .bind (checked_flag _) fun bottom => .pure _

theorem checked_readPicOrder {coding : PicOrderCnt} (h : coding.LsbFits) (bottomSent : Bool) :
    Checked (readPicOrder coding bottomSent) := by
  unfold readPicOrder
  split
  · rename_i log2MaxLsbMinus4
    have hwidth : log2MaxLsbMinus4 + 4 ≤ maxWidth := by
      have := h log2MaxLsbMinus4 rfl
      unfold maxWidth
      omega
    refine .bind (checked_bits hwidth _) fun lsb => ?_
    exact .bind (checked_optional (checked_se _) _) fun deltaBottom => .pure _
  · refine .bind (checked_se _) fun first => ?_
    exact .branch (checked_se _) (.pure 0) fun second => .pure _
  · exact .pure _
  · exact .pure _

theorem checked_readRefCounts (pps : PicParameterSet) (type : SliceType)
    (picStructure : PictureStructure) : Checked (readRefCounts pps type picStructure) := by
  unfold readRefCounts
  refine .branch (checked_flag _) (.pure false) fun overridden => .ite ?_ (.pure _)
  refine .bind (checked_ueMax _ _) fun l0 => ?_
  exact .branch (checked_ueMax _ _) (.pure _) fun l1 => .pure _

theorem checked_readQp (pps : PicParameterSet) (sps : SeqParameterSet) :
    Checked (readQp pps sps) := by
  unfold readQp
  exact .bind (checked_se _) fun delta => .require rfl (.pure _)

theorem checked_readQsDelta (pps : PicParameterSet) : Checked (readQsDelta pps) := by
  unfold readQsDelta
  exact .bind (checked_se _) fun delta => .require rfl (.pure delta)

theorem checked_readSwitching (pps : PicParameterSet) (type : SliceType) :
    Checked (readSwitching pps type) := by
  unfold readSwitching
  split
  · refine .bind (checked_flag _) fun forSwitch => ?_
    exact .bind (checked_readQsDelta pps) fun delta => .pure _
  · exact .bind (checked_readQsDelta pps) fun delta => .pure _
  all_goals exact .pure _

theorem checked_readDeblocking : Checked readDeblocking := by
  unfold readDeblocking
  refine .bind (checked_ueMax _ _) fun idc => .ite (.pure _) ?_
  exact .bind (checked_seRange _ _ _) fun alpha => .bind (checked_seRange _ _ _) fun beta => .pure _

end SliceHeader

namespace RefPicListModification

theorem checked_readKind (multiview : Bool) : Checked (readKind multiview) := by
  unfold readKind
  refine .bind (checked_ue _) fun idc => .ite (.pure none) ?_
  cases ModificationKind.ofIdc? multiview idc with
  | some kind => exact .pure _
  | none => exact .fail rfl

theorem checked_readSteps (multiview : Bool) (budget : Nat) :
    Checked (readSteps multiview budget) := by
  induction budget with
  | zero =>
    refine .bind (checked_readKind multiview) fun kind => ?_
    cases kind with
    | none => exact .pure []
    | some kind => exact .fail rfl
  | succ budget ih =>
    refine .bind (checked_readKind multiview) fun kind => ?_
    cases kind with
    | none => exact .pure []
    | some kind => exact .bind (checked_ue _) fun value => .bind ih fun rest => .pure _

theorem checked_read (type : SliceType) (multiview : Bool) : Checked (read type multiview) := by
  have hlist : ∀ (used : Bool) (flagName : String),
      Checked (readList multiview used flagName) := by
    intro used flagName
    refine .ite (.bind (checked_flag _) fun sent => .ite ?_ (.pure [])) (.pure [])
    exact checked_readSteps multiview maxSteps
  unfold read
  exact .bind (hlist _ _) fun l0 => .bind (hlist _ _) fun l1 => .pure _

end RefPicListModification

theorem PredWeight.checked_read (component list : String) :
    Checked (PredWeight.read component list) := by
  unfold PredWeight.read
  exact .bind (checked_seRange _ _ _) fun weight =>
    .bind (checked_seRange _ _ _) fun offset => .pure _

theorem PredWeightEntry.checked_read (hasChroma : Bool) (list : String) :
    Checked (PredWeightEntry.read hasChroma list) := by
  have hplanes : Checked (do
      return (← PredWeight.read "chroma" list, ← PredWeight.read "chroma" list)) :=
    .bind (PredWeight.checked_read _ _) fun cb => .bind (PredWeight.checked_read _ _) fun cr =>
      .pure (cb, cr)
  unfold PredWeightEntry.read
  refine .bind (checked_flagged (PredWeight.checked_read _ _) _) fun luma => ?_
  exact .branch (checked_flagged hplanes _) (.pure none) fun chroma => .pure _

theorem PredWeightTable.checked_read (type : SliceType) (hasChroma : Bool) (l0Count l1Count : Nat) :
    Checked (PredWeightTable.read type hasChroma l0Count l1Count) := by
  unfold PredWeightTable.read
  refine .bind (checked_ueMax _ _) fun luma => ?_
  refine .bind (checked_optional (checked_ueMax _ _) _) fun chroma => ?_
  refine .bind (checked_times (PredWeightEntry.checked_read _ _) _) fun l0 => ?_
  exact .bind (checked_times (PredWeightEntry.checked_read _ _) _) fun l1 => .pure _

namespace DecRefPicMarking

theorem checked_readOperands (code : Nat) : Checked (MemoryManagementOp.readOperands code) := by
  unfold MemoryManagementOp.readOperands
  split
  · exact .bind (checked_ue _) fun difference => .pure _
  · exact .bind (checked_ue _) fun picNum => .pure _
  · exact .bind (checked_ue _) fun difference => .bind (checked_ue _) fun frameIdx => .pure _
  · exact .bind (checked_ue _) fun limit => .pure _
  · exact .pure _
  · exact .bind (checked_ue _) fun frameIdx => .pure _

theorem checked_readCode : Checked readCode := by
  unfold readCode
  exact .bind (checked_ue _) fun code => .guard rfl (.pure code)

theorem checked_readOperations (budget : Nat) : Checked (readOperations budget) := by
  induction budget with
  | zero => exact .bind checked_readCode fun code => .ite (.pure []) (.fail rfl)
  | succ budget ih =>
    refine .bind checked_readCode fun code => .ite (.pure []) ?_
    exact .bind (checked_readOperands code) fun operation => .bind ih fun rest => .pure _

theorem checked_read (idr : Bool) : Checked (read idr) := by
  unfold read
  refine .ite ?_ (.bind (checked_flag _) fun adaptive => .ite ?_ (.pure _))
  · exact .bind (checked_flag _) fun noOutput => .bind (checked_flag _) fun longTerm => .pure _
  · exact .bind (checked_readOperations _) fun operations => .pure _

end DecRefPicMarking

/-! ## The header up to its change cycle -/

/-- The parameter set with a single slice group. -/
def PicParameterSet.withoutGroups (pps : PicParameterSet) : PicParameterSet :=
  { pps with sliceGroups := none }

namespace SliceHeader

variable (form : SliceForm) (firstMb : Nat) (type : SliceType) (pps : PicParameterSet)
  (sps : SeqParameterSet) (ppsId : Nat)

theorem yields_readBody (hsps : sps.FieldWidths) :
    Yields (readBody form firstMb type pps.withoutGroups sps ppsId)
      fun header => header.ppsId = ppsId := by
  have hwidth : sps.log2MaxFrameNum ≤ maxWidth := by
    have := hsps.frameNum
    unfold SeqParameterSet.log2MaxFrameNum maxWidth
    omega
  unfold readBody
  refine .bind (checked_optional checked_readColourPlaneId _) fun colourPlaneId _ => ?_
  refine .bind (checked_bits hwidth _) fun frameNum _ => ?_
  refine .bind (checked_readStructure sps) fun picStructure _ => ?_
  refine .bind (checked_optional (checked_ueMax _ _) _) fun idrPicId _ => ?_
  refine .bind (checked_readPicOrder hsps.lsb _) fun picOrder _ => ?_
  refine .bind (checked_optional (checked_ueMax _ _) _) fun redundantPicCnt _ => ?_
  refine .bind (checked_optional (checked_flag _) _) fun directSpatial _ => ?_
  refine .bind (checked_readRefCounts _ type picStructure) fun refCounts _ => ?_
  refine .bind (RefPicListModification.checked_read _ _) fun modification _ => ?_
  refine .bind (checked_optional (PredWeightTable.checked_read _ _ _ _) _) fun weights _ => ?_
  refine .bind (checked_optional (DecRefPicMarking.checked_read _) _) fun marking _ => ?_
  refine .bind (checked_optional (checked_ueMax _ _) _) fun cabacInitIdc _ => ?_
  refine .bind (checked_readQp _ sps) fun qp _ => ?_
  refine .bind (checked_readSwitching _ type) fun switching _ => ?_
  refine .branch checked_readDeblocking (.pure trivial) fun deblocking _ => ?_
  -- a single slice group does not evolve
  exact .bind (Checked.pure none) fun cycle _ => .pure rfl

/-- The end of a header, after which a change cycle stands where slice groups evolve. -/
def readCycle (header : SliceHeader) : Read SliceHeader :=
  match pps.sliceGroups.bind SliceGroups.changeRate? with
  | none => return header
  | some rate => return { header with groupChangeCycle := some (← readGroupChangeCycle sps rate) }

theorem readBody_eq :
    readBody form firstMb type pps sps ppsId =
      readBody form firstMb type pps.withoutGroups sps ppsId >>= readCycle pps sps := by
  unfold readBody
  simp only [bind_assoc]
  refine bind_congr fun colourPlaneId => bind_congr fun frameNum => ?_
  refine bind_congr fun picStructure => bind_congr fun idrPicId => ?_
  refine bind_congr fun picOrder => bind_congr fun redundantPicCnt => ?_
  refine bind_congr fun directSpatial => bind_congr fun refCounts => ?_
  refine bind_congr fun modification => bind_congr fun weights => ?_
  refine bind_congr fun marking => bind_congr fun cabacInitIdc => ?_
  refine bind_congr fun qp => bind_congr fun switching => ?_
  unfold readCycle
  by_cases hfilter : pps.deblockingFilterControlPresent
  · have hfilter' : pps.withoutGroups.deblockingFilterControlPresent := hfilter
    rw [if_pos hfilter, if_pos hfilter', bind_assoc]
    refine bind_congr fun deblocking => ?_
    cases pps.sliceGroups.bind SliceGroups.changeRate? with
    | none => rfl
    | some rate => exact bind_map_left some (readGroupChangeCycle sps rate) _
  · have hfilter' : ¬pps.withoutGroups.deblockingFilterControlPresent := hfilter
    rw [if_neg hfilter, if_neg hfilter', bind_assoc]
    refine bind_congr fun deblocking => ?_
    cases pps.sliceGroups.bind SliceGroups.changeRate? with
    | none => rfl
    | some rate => exact bind_map_left some (readGroupChangeCycle sps rate) _

end SliceHeader

end H264
