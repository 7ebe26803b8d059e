import H264.Proofs.Bits.Accepted
import H264.Proofs.Slice.Decoded

/-!
# Accepted slice headers

Every condition that a reader checks on its way through a slice header, and every gate that decides
whether a field is sent, holds of the header that it gives. `GivesOnly` says so of an action, with
one rule for each way of putting actions together. **Main statement** (`givesOnly_readAs`): a slice
header that is read is legal under the parameter sets that it names.
-/

namespace H264

/-! ## Actions that give legal values only -/

/-- Whatever is taken, the value that an action gives is legal. -/
abbrev GivesOnly {α : Type} (action : Read α) (legal : α → Prop) : Prop :=
  Takes action fun value _ => legal value

namespace GivesOnly

variable {α β : Type} {legal : α → Prop}

theorem of_accepts {action : Read α} {part : α → List Element} (h : Accepts action legal part) :
    GivesOnly action legal :=
  h.mono fun _ _ hvalue => hvalue.1

theorem andThen {first : Read α} {next : α → Read β} {post : β → Prop}
    (hfirst : GivesOnly first legal)
    (hnext : ∀ x, legal x → GivesOnly (next x) post) : GivesOnly (first >>= next) post :=
  hfirst.bind fun x _ hx => hnext x hx

theorem optional {item : Read α} (h : GivesOnly item legal) (present : Bool) :
    GivesOnly (Read.optional present item)
      fun value => value.isSome = present ∧ ∀ x ∈ value, legal x := by
  refine (Takes.optional h present).mono fun value elements ⟨hpresent, hsent⟩ => ⟨hpresent, ?_⟩
  rintro x ⟨⟩
  exact hsent

theorem times {item : Read α} (h : GivesOnly item legal) (count : Nat) :
    GivesOnly (Read.times item count)
      fun values => values.length = count ∧ ∀ value ∈ values, legal value := by
  induction count with
  | zero => exact .pure ⟨rfl, by simp⟩
  | succ count ih =>
    refine h.andThen fun first hfirst => ih.andThen fun rest ⟨hcount, hrest⟩ => .pure ⟨?_, ?_⟩
    · rw [List.length_cons, hcount]
    · exact List.forall_mem_cons.mpr ⟨hfirst, hrest⟩

theorem flagged {item : Read α} (h : GivesOnly item legal) (name : String) :
    GivesOnly (Read.flagged name item) fun value => ∀ x ∈ value, legal x := by
  unfold Read.flagged
  exact .part (.flag _) fun present _ => (h.optional present).mono fun _ _ hvalue => hvalue.2

/-- A field that is sent under a condition and is known otherwise. -/
theorem sentIf {present : Bool} {item : Read α} {absent : α} (h : GivesOnly item legal)
    (habsent : legal absent) :
    GivesOnly (if present = true then item else Pure.pure absent)
      fun value => legal value ∧ (present = false → value = absent) := by
  cases present with
  | false => exact .pure ⟨habsent, fun _ => rfl⟩
  | true => exact h.mono fun value _ hvalue => ⟨hvalue, nofun⟩

/-- A field whose form depends on a condition, before the rest of an action. -/
theorem branch {condition : Prop} [Decidable condition] {yes no : Read α} {rest : α → Read β}
    {post : β → Prop} (hfield : GivesOnly (if condition then yes else no) legal)
    (hrest : ∀ x, legal x → GivesOnly (rest x) post) :
    GivesOnly (if condition then yes >>= rest else no >>= rest) post := by
  have hboth := hfield.andThen hrest
  by_cases h : condition
  · rw [if_pos h] at hboth ⊢
    exact hboth
  · rw [if_neg h] at hboth ⊢
    exact hboth

end GivesOnly

/-! ## Changes of the reference lists -/

namespace RefPicListModification

theorem multiview_of_ofIdc? {multiview : Bool} {idc : Nat} {kind : ModificationKind}
    (h : ModificationKind.ofIdc? multiview idc = some kind)
    (hview : kind = .subtractViewIdx ∨ kind = .addViewIdx) : multiview = true := by
  cases multiview with
  | true => rfl
  | false =>
    unfold ModificationKind.ofIdc? at h
    split at h
    all_goals cases h
    all_goals simp at hview

theorem givesOnly_readKind (multiview : Bool) :
    GivesOnly (readKind multiview) fun kind? =>
      ∀ kind ∈ kind?, kind = .subtractViewIdx ∨ kind = .addViewIdx → multiview = true := by
  unfold readKind
  refine .part (.ue _) fun idc _ => .ite (fun _ => .pure (by simp)) fun _ => ?_
  cases hkind : ModificationKind.ofIdc? multiview idc with
  | none => exact .fail _ _
  | some kind => exact .pure (by simpa using multiview_of_ofIdc? hkind)

/-- Induction on how many steps may follow. -/
theorem givesOnly_readSteps (multiview : Bool) (budget : Nat) :
    GivesOnly (readSteps multiview budget) fun steps =>
      steps.length ≤ budget ∧ ∀ step ∈ steps, step.Legal multiview := by
  induction budget with
  | zero =>
    refine (givesOnly_readKind multiview).andThen fun kind? hkind => ?_
    cases kind? with
    | none => exact .pure (by simp)
    | some kind => exact .fail _ _
  | succ budget ih =>
    refine (givesOnly_readKind multiview).andThen fun kind? hkind => ?_
    cases kind? with
    | none => exact .pure (by simp)
    | some kind =>
      refine .part (.ue _) fun value hvalue => ih.andThen fun rest ⟨hcount, hrest⟩ => .pure ⟨?_, ?_⟩
      · exact Nat.succ_le_succ hcount
      · exact List.forall_mem_cons.mpr ⟨⟨hkind kind rfl, hvalue⟩, hrest⟩

theorem givesOnly_readList (multiview used : Bool) (flagName : String) :
    GivesOnly (readList multiview used flagName) (LegalList multiview used) := by
  unfold readList
  refine .ite (fun hused => ?_) fun hused => ?_
  · refine .part (.flag _) fun sent _ => .ite (fun _ => ?_) fun _ => .pure ?_
    · refine (givesOnly_readSteps multiview maxSteps).mono fun steps _ ⟨hcount, hsteps⟩ => ?_
      exact ⟨fun hunused => absurd (hused.symm.trans hunused) nofun, hcount, hsteps⟩
    · exact ⟨fun _ => rfl, by simp, by simp⟩
  · exact .pure ⟨fun _ => rfl, by simp, by simp⟩

theorem givesOnly_read (type : SliceType) (multiview : Bool) :
    GivesOnly (read type multiview) fun modification => modification.Legal type multiview := by
  unfold read
  exact (givesOnly_readList _ _ _).andThen fun l0 hl0 =>
    (givesOnly_readList _ _ _).andThen fun l1 hl1 => .pure ⟨hl0, hl1⟩

end RefPicListModification

/-! ## Prediction weights -/

theorem PredWeight.givesOnly_read (component list : String) :
    GivesOnly (PredWeight.read component list) PredWeight.Legal := by
  unfold PredWeight.read
  exact .part (.seRange _ _ _) fun weight hweight => .part (.seRange _ _ _) fun offset hoffset =>
    .pure ⟨hweight, hoffset⟩

theorem PredWeightEntry.givesOnly_read (hasChroma : Bool) (list : String) :
    GivesOnly (PredWeightEntry.read hasChroma list) fun entry => entry.Legal hasChroma := by
  have hplanes : GivesOnly
      (return (← PredWeight.read "chroma" list, ← PredWeight.read "chroma" list))
      fun planes => planes.1.Legal ∧ planes.2.Legal :=
    (PredWeight.givesOnly_read _ _).andThen fun cb hcb =>
      (PredWeight.givesOnly_read _ _).andThen fun cr hcr => .pure ⟨hcb, hcr⟩
  have hchroma : GivesOnly
      (if hasChroma = true then Read.flagged s!"chroma_weight_{list}_flag"
        (return (← PredWeight.read "chroma" list, ← PredWeight.read "chroma" list))
      else Pure.pure none)
      fun chroma => (∀ planes ∈ chroma, planes.1.Legal ∧ planes.2.Legal) ∧
        (hasChroma = false → chroma = none) :=
    .sentIf (hplanes.flagged _) (by simp)
  unfold PredWeightEntry.read
  exact ((PredWeight.givesOnly_read _ _).flagged _).andThen fun luma hluma =>
    .branch hchroma fun chroma ⟨hlegal, hsent⟩ => .pure ⟨hluma, hlegal, hsent⟩

theorem PredWeightTable.givesOnly_read (type : SliceType) (hasChroma : Bool)
    (l0Count l1Count : Nat) :
    GivesOnly (PredWeightTable.read type hasChroma l0Count l1Count) fun table =>
      table.Legal type hasChroma l0Count l1Count := by
  have hentries (list : String) (count : Nat) :=
    (PredWeightEntry.givesOnly_read hasChroma list).times count
  unfold PredWeightTable.read
  refine .part (.ueMax _ _) fun luma hluma => ?_
  refine .part (.optional (.ueMax _ _) _) fun chroma ⟨hsent, hchroma⟩ => ?_
  exact (hentries _ _).andThen fun l0 ⟨hl0Count, hl0⟩ =>
    (hentries _ _).andThen fun l1 ⟨hl1Count, hl1⟩ =>
      .pure ⟨hluma, hsent, hchroma, hl0Count, hl1Count, hl0, hl1⟩

/-! ## Marking of reference pictures -/

namespace DecRefPicMarking

theorem givesOnly_readOperands {code : Nat} (hcode : code ≤ maxCode) :
    GivesOnly (MemoryManagementOp.readOperands code) MemoryManagementOp.Legal := by
  unfold MemoryManagementOp.readOperands
  split
  · exact .part (.ue _) fun difference hdifference => .pure hdifference
  · exact .part (.ue _) fun picNum hpicNum => .pure hpicNum
  · exact .part (.ue _) fun difference hdifference => .part (.ue _) fun frameIdx hframeIdx =>
      .pure ⟨hdifference, hframeIdx⟩
  · exact .part (.ue _) fun limit hlimit => .pure hlimit
  · exact .pure trivial
  · exact .part (.ue _) fun frameIdx hframeIdx => .pure hframeIdx

/-- Induction on how many operations may follow. -/
theorem givesOnly_readOperations (budget : Nat) :
    GivesOnly (readOperations budget) fun operations =>
      operations.length ≤ budget ∧ ∀ op ∈ operations, op.Legal := by
  have hcode : GivesOnly readCode fun code => code ≤ maxCode := by
    unfold readCode
    exact .part (.ue _) fun code _ => .guard fun h => .pure (Nat.not_lt.mp h)
  induction budget with
  | zero =>
    exact hcode.andThen fun code _ => .ite (fun _ => .pure (by simp)) fun _ => .fail _ _
  | succ budget ih =>
    refine hcode.andThen fun code hcode => .ite (fun _ => .pure (by simp)) fun _ => ?_
    refine (givesOnly_readOperands hcode).andThen fun first hfirst => ?_
    refine ih.andThen fun rest ⟨hcount, hrest⟩ => .pure ⟨Nat.succ_le_succ hcount, ?_⟩
    exact List.forall_mem_cons.mpr ⟨hfirst, hrest⟩

theorem givesOnly_read (idr : Bool) : GivesOnly (read idr) fun marking => marking.Legal idr := by
  unfold read
  refine .ite (fun hidr => ?_) fun hidr => ?_
  · exact .part (.flag _) fun noOutput _ => .part (.flag _) fun longTerm _ => .pure hidr
  · have hidr := Bool.eq_false_iff.mpr hidr
    refine .part (.flag _) fun adaptive _ => .ite (fun _ => ?_) fun _ => .pure hidr
    exact (givesOnly_readOperations _).andThen fun operations hoperations =>
      .pure ⟨hidr, hoperations⟩

end DecRefPicMarking

/-! ## Parts of the header -/

namespace SliceHeader

theorem givesOnly_readType (form : SliceForm) :
    GivesOnly (readType form) fun type => form.unitType = .idrSlice → type.isIntra = true := by
  unfold readType
  refine .part (.ue _) fun number _ => .step (.ofExcept _) fun type _ => .guard fun h => .pure ?_
  intro hidr
  by_contra hinter
  exact h ⟨hidr, by simpa using hinter⟩

theorem givesOnly_readColourPlaneId : GivesOnly readColourPlaneId fun id => id ≤ 2 := by
  unfold readColourPlaneId
  exact .part (.bits _ _) fun id _ => .guard fun h => .pure (Nat.not_lt.mp h)

theorem givesOnly_readStructure (sps : SeqParameterSet) :
    GivesOnly (readStructure sps) fun picStructure =>
      sps.frameMbsOnly = true → picStructure = .frame := by
  unfold readStructure
  refine .ite (fun _ => .pure fun _ => rfl) fun hfields => ?_
  refine .part (.flag _) fun field _ => .ite (fun _ => ?_) fun _ => .pure fun _ => rfl
  exact .part (.flag _) fun bottom _ => .pure fun honly => absurd honly hfields

theorem givesOnly_readPicOrder (coding : PicOrderCnt) (bottomSent : Bool) :
    GivesOnly (readPicOrder coding bottomSent) fun order => order.Legal coding bottomSent := by
  unfold readPicOrder
  split
  next log2MaxLsbMinus4 =>
    exact .part (.bits _ _) fun lsb hlsb => .part (.optional (.se _) _) fun deltaBottom hdelta =>
      .pure ⟨hlsb, hdelta⟩
  next nonRefPic topToBottomField refFrames =>
    have hsecond : GivesOnly
        (if bottomSent = true then Read.se "delta_pic_order_cnt[1]" else Pure.pure 0)
        fun second => (-Codeword.maxSigned ≤ second ∧ second ≤ Codeword.maxSigned) ∧
          (bottomSent = false → second = 0) :=
      .sentIf (.of_accepts (.se _)) (by decide)
    exact .part (.se _) fun first hfirst => GivesOnly.branch hsecond fun second ⟨hrange, hnone⟩ =>
      .pure ⟨hfirst, hrange, hnone⟩
  next => exact .pure trivial
  next => exact .pure trivial

theorem givesOnly_readRefCounts (pps : PicParameterSet) (type : SliceType)
    (picStructure : PictureStructure) :
    GivesOnly (readRefCounts pps type picStructure) fun counts =>
      counts.Legal pps type picStructure := by
  have hflag : GivesOnly
      (if type.usesL0 = true then Read.flag "num_ref_idx_active_override_flag" else Pure.pure false)
      fun overridden => True ∧ (type.usesL0 = false → overridden = false) :=
    .sentIf (.of_accepts (.flag _)) trivial
  have hmaximum : (if picStructure = .frame then 15 else 31 : Int) =
      (RefCounts.maximumMinus1 picStructure : Nat) := by
    unfold RefCounts.maximumMinus1
    split <;> rfl
  unfold readRefCounts
  refine GivesOnly.branch hflag fun overridden ⟨_, hunused⟩ => ?_
  cases overridden with
  | false => exact .pure ⟨hunused, fun _ => rfl, nofun, fun _ => rfl, nofun⟩
  | true =>
    simp only [↓reduceIte, hmaximum]
    refine .part (.ueMax _ _) fun l0Minus1 hl0 => ?_
    -- the second list is overridden only where it is used
    cases hused : type.usesL1 with
    | false =>
      refine .pure ⟨hunused, nofun, fun _ => hl0, fun _ => rfl, fun _ hl1 => ?_⟩
      exact absurd (hused.symm.trans hl1) nofun
    | true =>
      refine .part (.ueMax _ _) fun l1Minus1 hl1 =>
        .pure ⟨hunused, nofun, fun _ => hl0, ?_, fun _ _ => hl1⟩
      rintro (⟨⟨⟩⟩ | hnone)
      exact absurd (hused.symm.trans hnone) nofun

theorem givesOnly_readQp (pps : PicParameterSet) (sps : SeqParameterSet) :
    GivesOnly (readQp pps sps) fun (delta, qp) =>
      qp = 26 + pps.picInitQpMinus26 + delta ∧ -(sps.qpBdOffsetY : Int) ≤ qp ∧ qp ≤ maxSliceQp := by
  unfold readQp
  exact .part (.se _) fun delta _ => .require fun hrange => .pure ⟨rfl, hrange⟩

theorem givesOnly_readQsDelta (pps : PicParameterSet) :
    GivesOnly (readQsDelta pps) fun delta =>
      0 ≤ 26 + pps.picInitQsMinus26 + delta ∧ 26 + pps.picInitQsMinus26 + delta ≤ maxSliceQp := by
  unfold readQsDelta
  exact .part (.se _) fun delta _ => .require fun hrange => .pure hrange

theorem givesOnly_readSwitching (pps : PicParameterSet) (type : SliceType) :
    GivesOnly (readSwitching pps type) fun switching => switching.Legal pps type := by
  obtain ⟨family, same⟩ := type
  unfold readSwitching
  cases family with
  | sp =>
    refine .part (.flag _) fun spForSwitch _ => ?_
    refine (givesOnly_readQsDelta pps).andThen fun delta hqs => ?_
    exact .pure ⟨nofun, rfl, by simpa using hqs⟩
  | si =>
    refine (givesOnly_readQsDelta pps).andThen fun delta hqs => ?_
    exact .pure ⟨fun _ => rfl, rfl, by simpa using hqs⟩
  | p | b | i => exact .pure ⟨fun _ => rfl, rfl, by simp⟩

theorem legal_noDeblocking : Deblocking.Legal {} :=
  ⟨by decide, by decide, by decide, fun _ => ⟨rfl, rfl⟩⟩

theorem givesOnly_readDeblocking : GivesOnly readDeblocking Deblocking.Legal := by
  unfold readDeblocking
  refine .part (.ueMax _ _) fun disableIdc hidc => .ite (fun hoff => ?_) fun hon => ?_
  · exact .pure ⟨hidc, by simp, by simp, fun _ => ⟨rfl, rfl⟩⟩
  · exact .part (.seRange _ _ _) fun alpha halpha => .part (.seRange _ _ _) fun beta hbeta =>
      .pure ⟨hidc, halpha, hbeta, fun hoff => absurd hoff hon⟩

theorem givesOnly_readGroupChangeCycle (sps : SeqParameterSet) (rate : Nat) :
    GivesOnly (readGroupChangeCycle sps rate) fun cycle =>
      groupChangeCycleBits sps.picSizeInMapUnits rate ≤ Read.maxWidth ∧
        cycle ≤ maxGroupChangeCycle sps.picSizeInMapUnits rate := by
  by_cases hwide : Read.maxWidth < groupChangeCycleBits sps.picSizeInMapUnits rate
  · rw [readGroupChangeCycle_of_wide hwide]
    exact .fail _ _
  · unfold readGroupChangeCycle
    exact .part (.bits _ _) fun cycle _ => .guard fun h =>
      .pure ⟨Nat.not_lt.mp hwide, Nat.not_lt.mp h⟩

/-- The change cycle at the end of a header. -/
theorem givesOnly_cycle (pps : PicParameterSet) (sps : SeqParameterSet) {β : Type}
    {next : Option Nat → Read β} {post : β → Prop}
    (hnext : ∀ cycle, LegalCycle pps sps cycle → GivesOnly (next cycle) post) :
    GivesOnly
      (match pps.sliceGroups.bind SliceGroups.changeRate? with
        | some rate => some <$> readGroupChangeCycle sps rate >>= next
        | none => Pure.pure none >>= next)
      post := by
  unfold LegalCycle at hnext
  cases hrate : pps.sliceGroups.bind SliceGroups.changeRate? with
  | none =>
    rw [hrate] at hnext
    exact hnext none rfl
  | some rate =>
    rw [hrate] at hnext
    show GivesOnly (some <$> readGroupChangeCycle sps rate >>= next) post
    rw [bind_map_left]
    exact (givesOnly_readGroupChangeCycle sps rate).andThen fun cycle ⟨hwidth, hmost⟩ =>
      hnext (some cycle) ⟨hwidth, cycle, rfl, hmost⟩

/-! ## The header -/

theorem givesOnly_readBody (form : SliceForm) {firstMb : Nat} {type : SliceType}
    (pps : PicParameterSet) (sps : SeqParameterSet) {ppsId : Nat}
    (hfirst : firstMb ≤ Codeword.maxCodeNumber)
    (htype : form.unitType = .idrSlice → type.isIntra = true) (hppsId : ppsId ≤ maxPpsId) :
    GivesOnly (readBody form firstMb type pps sps ppsId) fun header =>
      header.ppsId = ppsId ∧ header.Legal form pps sps := by
  unfold readBody
  refine (givesOnly_readColourPlaneId.optional _).andThen
    fun colourPlaneId ⟨hplaneSent, hplane⟩ => ?_
  refine .part (.bits _ _) fun frameNum hframeNum => ?_
  refine (givesOnly_readStructure sps).andThen fun picStructure hstructure => ?_
  refine .part (.optional (.ueMax _ _) _) fun idrPicId ⟨hidrSent, hidr⟩ => ?_
  refine (givesOnly_readPicOrder _ _).andThen fun picOrder horder => ?_
  refine .part (.optional (.ueMax _ _) _) fun redundantPicCnt ⟨hredundantSent, hredundant⟩ => ?_
  refine .part (.optional (.flag _) _) fun directSpatial ⟨hdirectSent, _⟩ => ?_
  refine (givesOnly_readRefCounts _ _ _).andThen fun refCounts hcounts => ?_
  refine (RefPicListModification.givesOnly_read _ _).andThen fun modification hmodification => ?_
  refine ((PredWeightTable.givesOnly_read _ _ _ _).optional _).andThen
    fun weights ⟨hweightsSent, hweights⟩ => ?_
  refine ((DecRefPicMarking.givesOnly_read _).optional _).andThen
    fun marking ⟨hmarkingSent, hmarking⟩ => ?_
  refine .part (.optional (.ueMax _ _) _) fun cabacInitIdc ⟨hcabacSent, hcabac⟩ => ?_
  refine (givesOnly_readQp _ _).andThen fun (qpDelta, qp) ⟨hqp, hrange⟩ => ?_
  refine (givesOnly_readSwitching _ _).andThen fun switching hswitching => ?_
  refine GivesOnly.branch (.sentIf givesOnly_readDeblocking legal_noDeblocking)
    fun deblocking ⟨hdeblocking, hdefault⟩ => ?_
  refine givesOnly_cycle pps sps fun cycle hcycle => .pure ⟨rfl, ?_⟩
  exact {
    firstMb := hfirst
    type := htype
    ppsId := hppsId
    colourPlaneIdSent := hplaneSent
    colourPlaneId := hplane
    frameNum := hframeNum
    picStructure := hstructure
    idr := rfl
    idrPicIdSent := hidrSent
    idrPicId := hidr
    picOrder := horder
    redundantPicCntSent := hredundantSent
    redundantPicCnt := hredundant
    directSpatialMvPredSent := hdirectSent
    refCounts := hcounts
    refPicListModification := hmodification
    predWeightTableSent := hweightsSent
    predWeightTable := hweights
    markingSent := hmarkingSent
    marking := hmarking
    cabacInitIdcSent := hcabacSent
    cabacInitIdc := hcabac
    qp := hqp
    qpRange := hrange
    switching := hswitching
    deblockingSent := hdefault
    deblocking := hdeblocking
    groupChangeCycle := hcycle }

/-- **Accepted headers are legal.** A header that is read in a slice of some form names parameter
sets that are there, and is legal under them. -/
theorem givesOnly_readAs (form : SliceForm) (sets : ParamSets) :
    GivesOnly (readAs form sets) fun header => ∃ pps sps,
      findParamSets sets form.multiview header.ppsId = .ok (pps, sps) ∧
        header.Legal form pps sps := by
  unfold readAs readPpsId
  refine .part (.ue _) fun firstMb hfirst => ?_
  refine (givesOnly_readType form).andThen fun type htype => ?_
  refine .part (.ueMax _ _) fun ppsId hppsId => .step (.ofExcept _) fun (pps, sps) hfind => ?_
  refine (givesOnly_readBody form pps sps hfirst htype hppsId).mono ?_
  rintro header _ ⟨rfl, hlegal⟩
  exact ⟨pps, sps, hfind, hlegal⟩

/-- The same of slices whose form their unit tells. -/
theorem givesOnly_read (sets : ParamSets) (nal : NalHeader) (extension : Option HeaderExtension) :
    GivesOnly (read sets nal extension) fun header => ∃ form pps sps,
      SliceForm.ofHeader nal extension = .ok form ∧
        findParamSets sets form.multiview header.ppsId = .ok (pps, sps) ∧
          header.Legal form pps sps := by
  unfold read
  refine .step (.ofExcept _) fun form hform => (givesOnly_readAs form sets).mono ?_
  rintro header _ ⟨pps, sps, hfind, hlegal⟩
  exact ⟨form, pps, sps, hform, hfind, hlegal⟩

end SliceHeader

end H264
