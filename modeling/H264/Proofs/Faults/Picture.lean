import H264.Pps.Basic
import H264.Proofs.Faults.Sequence

/-!
# Reading picture parameter sets

A picture parameter set fails only with errors that a stream can cause, whatever sequence parameter
sets are known. The number of slice groups bounds the width of an explicit group number.
-/

namespace H264

open Read

/-! ## Slice groups -/

theorem ceilLog2_le {value : Int} (hpos : 0 < value) (h : value ≤ 8) : ceilLog2 value ≤ 3 := by
  have hbelow : (value - 1).natAbs < 2 ^ 3 := by omega
  unfold ceilLog2
  dsimp only
  by_cases hzero : (value - 1).natAbs = 0
  · rw [if_pos hzero]
    exact Nat.zero_le 3
  · rw [if_neg hzero]
    exact (Nat.log2_lt hzero).mpr hbelow

namespace SliceGroupMap

variable {countMinus1 : Int}

theorem checked_readGroupId (hnonneg : 0 ≤ countMinus1) (h : countMinus1 ≤ 7) :
    Checked (readGroupId countMinus1) := by
  have hwidth : ceilLog2 (countMinus1 + 1) ≤ maxWidth :=
    Nat.le_trans (ceilLog2_le (by omega) (by omega)) (by decide)
  unfold readGroupId
  exact .bind (checked_bits hwidth _) fun id => .guard rfl (.pure id)

theorem checked_readRect : Checked readRect := by
  unfold readRect
  exact .bind (checked_ue _) fun topLeft => .bind (checked_ue _) fun bottomRight => .pure _

theorem checked_readEvolving (kind : EvolvingMap) : Checked (readEvolving kind) := by
  unfold readEvolving
  exact .bind (checked_flag _) fun direction => .bind (checked_ue _) fun rate => .pure _

theorem checked_read (hnonneg : 0 ≤ countMinus1) (h : countMinus1 ≤ 7) :
    Checked (read countMinus1) := by
  unfold read
  refine .bind (checked_ueMax _ _) fun type => ?_
  split
  · exact .bind (checked_times (checked_ue _) _) fun runs => .pure _
  · exact .pure _
  · exact .bind (checked_times checked_readRect _) fun rectangles => .pure _
  · exact checked_readEvolving .boxOut
  · exact checked_readEvolving .rasterScan
  · exact checked_readEvolving .wipe
  · refine .bind (checked_ue _) fun size => ?_
    exact .bind (checked_times (checked_readGroupId hnonneg h) _) fun ids => .pure _

end SliceGroupMap

/-! ## Picture parameter sets -/

namespace PicParameterSet

variable (findSps : Nat → Option SeqParameterSet)

theorem checked_readScalingMatrix (spsId : Nat) (transform8x8Mode : Bool) :
    Checked (readScalingMatrix findSps spsId transform8x8Mode) := by
  unfold readScalingMatrix
  refine .ite ?_ (ScalingMatrix.checked_read _)
  cases findSps spsId with
  | none => exact .fail rfl
  | some sps => exact ScalingMatrix.checked_read _

theorem checked_readExtension (spsId : Nat) : Checked (readExtension findSps spsId) := by
  unfold readExtension
  refine .bind (checked_flag _) fun transform8x8Mode => ?_
  refine .bind (checked_flagged (checked_readScalingMatrix findSps spsId _) _) fun matrix => ?_
  exact .bind (checked_seRange _ _ _) fun offset => .pure _

theorem checked_readWeightedBipredIdc : Checked readWeightedBipredIdc := by
  unfold readWeightedBipredIdc
  exact .bind (checked_bits (by decide) _) fun idc => .guard rfl (.pure idc)

theorem checked_read : Checked (read findSps) := by
  unfold read
  refine .bind (checked_ueMax _ _) fun id => .bind (checked_ueMax _ _) fun spsId => ?_
  refine .bind (checked_flag _) fun entropyCoding => .bind (checked_flag _) fun bottomField => ?_
  -- the number of groups, on which the width of a group number depends
  refine .bindWith (yields_ueMax _ _) fun groupsMinus1 hgroups => ?_
  have hmap : Checked (SliceGroups.read groupsMinus1) :=
    .bind (SliceGroupMap.checked_read (Int.natCast_nonneg groupsMinus1) hgroups) fun map => .pure _
  refine .bind (checked_optional hmap _) fun groups => ?_
  refine .bind (checked_ueMax _ _) fun l0 => .bind (checked_ueMax _ _) fun l1 => ?_
  refine .bind (checked_flag _) fun weightedPred => ?_
  refine .bind checked_readWeightedBipredIdc fun bipred => ?_
  refine .bind (checked_seRange _ _ _) fun qp => .bind (checked_seRange _ _ _) fun qs => ?_
  refine .bind (checked_seRange _ _ _) fun chromaOffset => .bind (checked_flag _) fun filter => ?_
  refine .bind (checked_flag _) fun constrained => .bind (checked_flag _) fun redundant => ?_
  refine .bind checked_more fun more => ?_
  refine .bind (checked_optional (checked_readExtension findSps spsId) more) fun extension => ?_
  exact .bind checked_finishRbsp fun _ => .pure _

end PicParameterSet

end H264
