import H264.AccessUnitDelimiter
import H264.PrefixUnit
import H264.Proofs.Faults.Picture
import H264.Sei.Message
import H264.SpsExtension

/-!
# Decoding units without a slice

Every unit but a slice is decoded or fails with an error that a stream can cause: parameter sets,
supplemental messages, delimiters, extensions and prefix units.
-/

namespace H264

open Read

/-! ## The unit -/

namespace NalUnit

variable (unit : NalUnit)

theorem checked_header : CheckedOutcome unit.header := by
  unfold header
  cases unit.bytes with
  | nil => exact .fail rfl
  | cons byte rest => exact .ok _

theorem checked_checkedHeader : CheckedOutcome unit.checkedHeader := by
  unfold checkedHeader
  exact .bind unit.checked_header fun header _ => .guard rfl (.ok header)

theorem checked_headerExtension : CheckedOutcome unit.headerExtension := by
  unfold headerExtension NalUnit.type
  refine .bind (.bind unit.checked_header fun header _ => .ok _) fun type _ => ?_
  refine .ite ?_ (.ok none)
  split
  · exact .ok _
  · exact .fail rfl

theorem checked_rbsp : CheckedOutcome unit.rbsp := by
  unfold rbsp rbspAfter Rbsp.unescape
  dsimp only
  split
  · exact .fail rfl
  · exact .ok _

theorem checked_readRbsp {α : Type} {action : Read α} (h : Checked action) :
    CheckedOutcome (unit.readRbsp action) := by
  unfold readRbsp
  exact .bind unit.checked_rbsp fun data _ => h.value data

end NalUnit

/-! ## Small structures -/

theorem AccessUnitDelimiter.checked_read : Checked AccessUnitDelimiter.read := by
  unfold AccessUnitDelimiter.read
  exact .bind (checked_bits (by decide) _) fun type => .bind checked_finishRbsp fun _ => .pure _

theorem AuxFormatInfo.checked_read : Checked AuxFormatInfo.read := by
  unfold AuxFormatInfo.read
  refine .bindWith (yields_ueMax _ _) fun depth hdepth => .bind (checked_flag _) fun increment => ?_
  have hwidth : depth + 9 ≤ maxWidth := by
    unfold maxWidth
    omega
  refine .bind (checked_bits hwidth _) fun opaqueValue => ?_
  exact .bind (checked_bits hwidth _) fun transparentValue => .pure _

theorem SpsExtension.checked_read : Checked SpsExtension.read := by
  unfold SpsExtension.read
  refine .bind (checked_ueMax _ _) fun spsId => .bind (checked_ueMax _ _) fun format => ?_
  refine .bind (checked_optional AuxFormatInfo.checked_read _) fun info => ?_
  exact .bind (checked_flag _) fun additional => .bind checked_finishRbsp fun _ => .pure _

/-! ## Prefix units -/

theorem BaseMarking.checked_readOperations (budget : Nat) :
    Checked (BaseMarking.readOperations budget) := by
  induction budget with
  | zero => exact .fail rfl
  | succ budget ih =>
    unfold BaseMarking.readOperations
    refine .bind (checked_ue _) fun code => ?_
    split
    · exact .pure []
    · exact .bind (checked_ue _) fun operand => .bind ih fun rest => .pure _
    · exact .bind (checked_ue _) fun operand => .bind ih fun rest => .pure _
    · exact .fail rfl

theorem BaseMarking.checked_read : Checked BaseMarking.read := by
  unfold BaseMarking.read
  refine .bind (checked_flag _) fun adaptive => .ite ?_ (.pure _)
  refine .bind checked_get fun r => ?_
  exact .bind (BaseMarking.checked_readOperations _) fun operations => .pure _

theorem RefBasePic.checked_read (extension : SvcHeaderExtension) :
    Checked (RefBasePic.read extension) := by
  unfold RefBasePic.read
  refine .bind (checked_flag _) fun store => ?_
  refine .bind (checked_optional BaseMarking.checked_read _) fun marking => ?_
  refine .bind (checked_flag _) fun additional => .skippable checked_skipToTrailing fun _ => ?_
  exact .bind checked_finishRbsp fun _ => .pure _

theorem PrefixUnit.checked_ofUnit (unit : NalUnit) : CheckedOutcome (PrefixUnit.ofUnit unit) := by
  unfold PrefixUnit.ofUnit
  refine .bind unit.checked_checkedHeader fun header _ => ?_
  refine .bind unit.checked_headerExtension fun extension _ => ?_
  split
  · refine .ite (.ok _) ?_
    exact .bind (unit.checked_readRbsp (RefBasePic.checked_read _)) fun base _ => .ok _
  · exact .ok _

/-! ## Supplemental messages -/

namespace SeiMessage

theorem checked_readNumber (name : String) (budget : Nat) : Checked (readNumber name budget) := by
  induction budget with
  | zero => exact .fail rfl
  | succ budget ih =>
    unfold readNumber
    exact .bind (checked_u8 _) fun byte => .ite (.bind ih fun rest => .pure _) (.pure byte)

theorem checked_read : Checked read := by
  unfold read
  refine .bind checked_get fun r => .bind (checked_readNumber _ _) fun number => ?_
  refine .bind checked_get fun r' => .bind (checked_readNumber _ _) fun size => ?_
  refine .bind checked_get fun r'' => .guard rfl ?_
  exact .bind (checked_skip _ _) fun _ => .pure _

theorem isBitstream_of_collect {budget : Nat} {r : Reader} {error : Error}
    (h : (collect budget r).2 = some error) : error.isBitstream = true := by
  induction budget generalizing r with
  | zero => cases h
  | succ budget ih =>
    unfold collect at h
    by_cases hmore : r.hasMore
    · rw [if_pos hmore] at h
      have hread := checked_read r
      cases hrun : read r with
      | ok message r' =>
        rw [hrun] at h
        exact ih h
      | error stop r' =>
        rw [hrun] at h hread
        cases h
        exact hread
    · rw [if_neg hmore] at h
      have hclose := checked_finishRbsp r
      cases hrun : finishRbsp r with
      | ok done r' =>
        rw [hrun] at h
        cases h
      | error stop r' =>
        rw [hrun] at h hclose
        cases h
        exact hclose

theorem checked_messages (data : Bytes) : CheckedOutcome (messages data) := by
  unfold messages
  split
  · exact .ok _
  · rename_i found error hscan
    have hend : (scan data).2 = some error := by rw [hscan]
    exact .fail (isBitstream_of_collect hend)

theorem checked_ofUnit (unit : NalUnit) : CheckedOutcome (ofUnit unit) := by
  unfold ofUnit
  exact .bind unit.checked_rbsp fun data _ => checked_messages data

end SeiMessage

end H264
