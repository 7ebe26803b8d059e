import H264.Proofs.Bits.Local
import H264.Proofs.Scaling.Sent
import H264.Proofs.SubsetSps.Subset

/-!
# Subset sequence parameter sets that are read in part

Where usability information of an extension or a depth extension follows, reading stops, and what
follows is not looked at. Each part of a subset sequence parameter set is local, up to the flag for
further extensions. So data that agree up to there give the same set, where reading stops there
(`SubsetSps.read_congr_of_stopsEarly`) and where the flag announces bits that are passed over
(`SubsetSps.read_of_readHead`).
-/

namespace H264

/-! ## Sequence parameter sets -/

theorem ScalingList.local_read (size : Nat) : Local (ScalingList.read size) := by
  refine .of_takes (takes_sentBy size) ?_
  rintro list _ ⟨sent, hsent, rfl⟩
  exact readsBack_sentBy hsent

theorem ScalingMatrix.local_readFrom (index count : Nat) :
    Local (ScalingMatrix.readFrom index count) := by
  induction count generalizing index with
  | zero => exact .pure []
  | succ count ih =>
    exact .bind (.flagged (ScalingList.local_read _) _) fun first =>
      .bind (ih (index + 1)) fun rest => .pure _

theorem ScalingMatrix.local_read (count : Nat) : Local (ScalingMatrix.read count) := by
  unfold ScalingMatrix.read
  exact .bind (ScalingMatrix.local_readFrom 0 count) fun lists => .pure _

theorem ChromaInfo.local_read (profileIdc : Nat) : Local (ChromaInfo.read profileIdc) := by
  refine .ite ?_ (.pure _)
  unfold ChromaInfo.readFields
  refine .bind (.ueMax _ (by decide)) fun format => ?_
  refine .branch (.flag _) (.pure false) fun separate => ?_
  refine .bind (.ueMax _ (by decide)) fun luma => .bind (.ueMax _ (by decide)) fun chroma => ?_
  refine .bind (.flag _) fun bypass => ?_
  exact .bind (.flagged (ScalingMatrix.local_read _) _) fun matrix => .pure _

theorem SeqParameterSet.local_readData : Local SeqParameterSet.readData := by
  have hpicOrderCnt : Local PicOrderCnt.read :=
    .of_accepts PicOrderCnt.accepts fun _ => PicOrderCnt.readsBack
  have hcropping : Local FrameCropping.read :=
    .of_accepts FrameCropping.accepts fun _ => FrameCropping.readsBack
  have hvui : Local VuiParameters.read :=
    .of_accepts VuiParameters.accepts fun _ => VuiParameters.readsBack
  have hfields : Local SeqParameterSet.readFields := by
    unfold SeqParameterSet.readFields
    refine .bind (.u8 _) fun profileIdc => .bind (.u8 _) fun flags => ?_
    refine .bind (.u8 _) fun levelIdc => ?_
    refine .bind (.ueMax _ (by decide)) fun id => .bind (ChromaInfo.local_read _) fun chroma => ?_
    refine .bind (.ueMax _ (by decide)) fun frameNum => .bind hpicOrderCnt fun picOrderCnt => ?_
    refine .bind (.ue _) fun refFrames => .bind (.flag _) fun gaps => .bind (.ue _) fun width => ?_
    refine .bind (.ue _) fun height => .bind (.flag _) fun frameMbsOnly => ?_
    refine .branch (.pure false) (.flag _) fun adaptive => .bind (.flag _) fun direct8x8 => ?_
    refine .bind (hcropping.flagged _) fun cropping => .bind (hvui.flagged _) fun vui => ?_
    exact .pure _
  unfold SeqParameterSet.readData
  exact .bind hfields fun sps => .bind (.ofExcept _) fun _ => .pure sps

/-! ## Extensions -/

theorem SvcSpsExtension.local_read (arrayType : Nat) : Local (SvcSpsExtension.read arrayType) := by
  have hphaseX : ∀ (sent : Bool) (name : String),
      Local (if sent && hasPhaseX arrayType then Read.flag name else return false) :=
    fun sent name => .ite (.flag name) (.pure false)
  have hphaseY : ∀ (sent : Bool) (name : String), Local (if sent && hasPhaseY arrayType
      then Read.bits 2 name else return inferredPhaseY arrayType) :=
    fun sent name => .ite (.bits (by decide) name) (.pure _)
  have hoffset : ∀ (sent : Bool) (name : String),
      Local (if sent then Read.se name else return 0) :=
    fun sent name => .ite (.se name) (.pure 0)
  unfold SvcSpsExtension.read
  refine .bind (.flag _) fun deblocking => .bind (.bits (by decide) _) fun scalability => ?_
  refine .bind (hphaseX _ _) fun chromaX => .bind (hphaseY _ _) fun chromaY => ?_
  refine .bind (hphaseX _ _) fun refX => .bind (hphaseY _ _) fun refY => ?_
  refine .bind (hoffset _ _) fun left => .bind (hoffset _ _) fun top => ?_
  refine .bind (hoffset _ _) fun right => .bind (hoffset _ _) fun bottom => ?_
  refine .bind (.flag _) fun prediction => .branch (.flag _) (.pure false) fun adaptive => ?_
  exact .bind (.flag _) fun restriction => .bind (.flag _) fun vui => .pure _

namespace MvcSpsExtension

theorem local_viewId (name : String) : Local (Read.ueMax name maxViewId) :=
  .ueMax name (by decide)

theorem local_readRefs (countName refName : String) : Local (readRefs countName refName) := by
  unfold readRefs
  exact .bind (.ueMax _ (by decide)) fun count => (local_viewId _).times count

theorem local_readViews : Local readViews := by
  have hanchor : Local readAnchorRefs :=
    .bind (local_readRefs _ _) fun l0 => .bind (local_readRefs _ _) fun l1 => .pure _
  have hnonAnchor : Local readNonAnchorRefs :=
    .bind (local_readRefs _ _) fun l0 => .bind (local_readRefs _ _) fun l1 => .pure _
  unfold readViews
  refine .bind (local_viewId _) fun count => .bind ((local_viewId _).times _) fun ids => ?_
  exact .bind (hanchor.times _) fun anchor => .bind (hnonAnchor.times _) fun nonAnchor => .pure _

theorem local_readPoint : Local readPoint := by
  unfold readPoint
  refine .bind (.bits (by decide) _) fun temporalId => .bind (local_viewId _) fun targets => ?_
  exact .bind ((local_viewId _).times _) fun ids => .bind (local_viewId _) fun views => .pure _

theorem local_readLevelValue : Local readLevelValue := by
  unfold readLevelValue
  refine .bind (.u8 _) fun levelIdc => .bind (local_viewId _) fun points => ?_
  exact .bind (local_readPoint.times _) fun values => .pure _

theorem local_read : Local read := by
  unfold read
  refine .bind local_readViews fun views => .bind (.ueMax _ (by decide)) fun levels => ?_
  exact .bind (local_readLevelValue.times _) fun values => .pure _

end MvcSpsExtension

namespace SubsetExtension

theorem local_read (sps : SeqParameterSet) : Local (SubsetExtension.read sps) := by
  unfold SubsetExtension.read
  refine .ite ?_ (.ite ?_ (.ite ?_ (.pure none)))
  · exact .bind (.flag _) fun one => .bind (SvcSpsExtension.local_read _) fun fields => .pure _
  · refine .bind (.flag _) fun one => .bind MvcSpsExtension.local_read fun fields => ?_
    exact .bind (.flag _) fun vui => .pure _
  · exact .bind (.flag _) fun one => .pure _

/-- The extension of a depth profile is one bit. -/
theorem read_of_depth {sps : SeqParameterSet} (h : sps.profileIdc ∈ [135, 138, 139]) :
    SubsetExtension.read sps =
      Read.flag "bit_equal_to_one" >>= fun _ => Pure.pure (some .depth) := by
  have hapart : ∀ idc ∈ [135, 138, 139],
      idc ∉ Profile.scalableIdcs ∧ idc ∉ Profile.multiviewIdcs ∧ idc ∈ Profile.depthIdcs := by
    decide
  obtain ⟨hscalable, hmultiview, hdepth⟩ := hapart sps.profileIdc h
  unfold SubsetExtension.read
  simp only [List.contains_iff_mem]
  rw [if_neg hscalable, if_neg hmultiview, if_pos hdepth]

end SubsetExtension

/-! ## Subset sequence parameter sets -/

namespace SubsetSps

/-- Reading stops before the flag for further extensions: for the profiles with depth (135, 138 and
139), and where usability information of the extension is present. -/
def StopsEarly (subset : SubsetSps) : Prop :=
  subset.sps.profileIdc ∈ [135, 138, 139] ∨
  (∃ fields, subset.extension = some (.svc fields) ∧ fields.vuiParametersPresent = true) ∨
  ∃ fields, subset.extension = some (.mvc fields true)

/-- The part that is decoded also where reading stops early. -/
def readHead : Read SubsetSps := do
  let sps ← SeqParameterSet.readData
  return { sps, extension := ← SubsetExtension.read sps }

theorem local_readHead : Local readHead := by
  unfold readHead
  exact .bind SeqParameterSet.local_readData fun sps =>
    .bind (SubsetExtension.local_read sps) fun extension => .pure _

theorem read_eq_readHead : read = readHead >>= fun subset =>
    if subset.extension.any SubsetExtension.hasUndecodedTail then Pure.pure subset
    else readTail >>= fun additional =>
      Pure.pure { subset with additionalExtension2 := additional } := by
  unfold read readHead
  simp only [bind_assoc, pure_bind]

/-- A set that stops early has parts that are not decoded. -/
theorem any_hasUndecodedTail_of_stopsEarly {subset : SubsetSps}
    (hgives : Read.Gives readHead subset) (h : subset.StopsEarly) :
    subset.extension.any SubsetExtension.hasUndecodedTail = true := by
  rcases h with hdepth | ⟨fields, hextension, hvui⟩ | ⟨fields, hextension⟩
  · -- which extension there is follows from the profile
    obtain ⟨sps, -, hrest⟩ := hgives.of_bind
    obtain ⟨extension, hread, before, after, hend⟩ := hrest.of_bind
    cases hend
    rw [SubsetExtension.read_of_depth hdepth] at hread
    obtain ⟨one, -, before, after, hend⟩ := hread.of_bind
    cases hend
    rfl
  · rw [hextension]
    exact hvui
  · rw [hextension]
    rfl

/-- Data that agree up to the flag for further extensions, set this flag and are closed give the
same set, whatever stands between. -/
theorem read_of_readHead {data other : Bytes} {head : SubsetSps} {mid : Reader}
    {reserved : List Bool} {count : Nat} (hhead : readHead { data } = .ok head mid)
    (hdecoded : head.extension.any SubsetExtension.hasUndecodedTail = false)
    (hagree : (Bytes.bits other).take mid.pos = (Bytes.bits data).take mid.pos)
    (hbehind : (Bytes.bits other).drop mid.pos =
      true :: (reserved ++ true :: List.replicate count false)) :
    Read.value read other = .ok { head with additionalExtension2 := true } := by
  have hother := local_readHead.run_congr hhead hagree
  have hrest : (Reader.ofPos other mid.pos).rest =
      Element.bits (.flag true :: reserved.map Element.flag) ++
        true :: List.replicate count false := by
    rw [Reader.rest_ofPos, Element.bits_cons, Element.codeword_flag, Element.bits_map_flag]
    exact hbehind
  obtain ⟨after, htail⟩ := (readsClosed_tail true reserved Bool.noConfusion).reads _ count hrest
  have hread : read { data := other } = .ok { head with additionalExtension2 := true } after := by
    rw [read_eq_readHead, bind_of_ok hother, if_neg (Bool.eq_false_iff.mp hdecoded),
      bind_of_ok htail]
    rfl
  exact Read.value_of_ok hread

/-- What stands behind the place where reading stops early is not looked at. -/
theorem read_congr_of_stopsEarly {data other : Bytes} {subset : SubsetSps} {after : Reader}
    (hrun : read { data } = .ok subset after) (h : subset.StopsEarly)
    (hagree : (Bytes.bits other).take after.pos = (Bytes.bits data).take after.pos) :
    Read.value read other = .ok subset := by
  rw [read_eq_readHead] at hrun
  cases hhead : readHead { data } with
  | error error mid =>
    rw [bind_of_error hhead] at hrun
    cases hrun
  | ok head mid =>
    rw [bind_of_ok hhead] at hrun
    cases htail : head.extension.any SubsetExtension.hasUndecodedTail with
    | true =>
      rw [if_pos htail] at hrun
      cases hrun
      have hother := local_readHead.run_congr hhead hagree
      have hread : read { data := other } = .ok subset (.ofPos other after.pos) := by
        rw [read_eq_readHead, bind_of_ok hother, if_pos htail]
        rfl
      exact Read.value_of_ok hread
    | false =>
      -- a set that was read to its end has nothing that is not decoded
      rw [if_neg (Bool.eq_false_iff.mp htail)] at hrun
      have hsame : ∃ additional, subset = { head with additionalExtension2 := additional } := by
        obtain ⟨additional, -, before, last, hend⟩ := Read.Gives.of_bind ⟨mid, after, hrun⟩
        cases hend
        exact ⟨additional, rfl⟩
      obtain ⟨additional, rfl⟩ := hsame
      have hstops : head.StopsEarly := h
      have hearly := any_hasUndecodedTail_of_stopsEarly ⟨_, mid, hhead⟩ hstops
      rw [htail] at hearly
      cases hearly

end SubsetSps

end H264
