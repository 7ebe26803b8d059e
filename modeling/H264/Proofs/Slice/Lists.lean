import H264.Proofs.Bits.ReadBack
import H264.Slice.Marking
import H264.Slice.PredWeight
import H264.Slice.RefPicList

/-!
# The lists of a slice header

The three parts of a slice header that hold lists: changes of the reference lists, prediction
weights and the marking of reference pictures. For each part its legal values, whose elements read
back. The first and the last are closed by a code of their own, so that their readers are followed
step by step.
-/

namespace H264

/-! ## Changes of the reference lists -/

/-- A legal step: only multiview slices name views. -/
structure PicNumModification.Legal (multiview : Bool) (step : PicNumModification) : Prop where
  kind : step.kind = .subtractViewIdx ∨ step.kind = .addViewIdx → multiview = true
  value : step.value ≤ Codeword.maxCodeNumber

/-- Legal steps for one list, none where the list is not used. -/
structure RefPicListModification.LegalList (multiview used : Bool)
    (steps : List PicNumModification) : Prop where
  used : used = false → steps = []
  count : steps.length ≤ maxSteps
  steps : ∀ step ∈ steps, step.Legal multiview

/-- Legal steps for both lists. -/
structure RefPicListModification.Legal (type : SliceType) (multiview : Bool)
    (modification : RefPicListModification) : Prop where
  l0 : LegalList multiview (!type.isIntra) modification.l0
  l1 : LegalList multiview type.usesL1 modification.l1

namespace RefPicListModification

theorem ofIdc?_idc {multiview : Bool} {kind : ModificationKind}
    (h : kind = .subtractViewIdx ∨ kind = .addViewIdx → multiview = true) :
    ModificationKind.ofIdc? multiview kind.idc = some kind := by
  cases kind with
  | subtractViewIdx => simp [ModificationKind.idc, ModificationKind.ofIdc?, h]
  | addViewIdx => simp [ModificationKind.idc, ModificationKind.ofIdc?, h]
  | _ => rfl

theorem readsBack_kind {multiview : Bool} {kind : ModificationKind}
    (h : kind = .subtractViewIdx ∨ kind = .addViewIdx → multiview = true) :
    ReadsBack (readKind multiview) [.ue kind.idc] (some kind) := by
  have hcode : kind.idc ≤ Codeword.maxCodeNumber := by cases kind <;> decide
  have hmore : kind.idc ≠ endIdc := by cases kind <;> decide
  unfold readKind
  refine .cons (.ue _ hcode) ?_
  rw [if_neg hmore, ofIdc?_idc h]
  exact .pure _

theorem readsBack_end (multiview : Bool) :
    ReadsBack (readKind multiview) [.ue endIdc] none := by
  unfold readKind
  refine .cons (.ue _ (by decide)) ?_
  rw [if_pos rfl]
  exact .pure _

theorem readsBack_steps {multiview : Bool} {budget : Nat} {steps : List PicNumModification}
    (hcount : steps.length ≤ budget) (h : ∀ step ∈ steps, step.Legal multiview) :
    ReadsBack (readSteps multiview budget)
      (steps.flatMap (fun step => [.ue step.kind.idc, .ue step.value]) ++ [.ue endIdc]) steps := by
  induction steps generalizing budget with
  | nil =>
    -- the code that ends the list is sent also when no more steps may follow
    cases budget with
    | zero => exact .cons (readsBack_end multiview) (.pure [])
    | succ budget => exact .cons (readsBack_end multiview) (.pure [])
  | cons first rest ih =>
    obtain ⟨budget, rfl⟩ : ∃ n, budget = n + 1 :=
      ⟨budget - 1, by rw [List.length_cons] at hcount; omega⟩
    obtain ⟨hfirst, hrest⟩ := List.forall_mem_cons.mp h
    have hback := ih (Nat.le_of_succ_le_succ hcount) hrest
    exact .cons (readsBack_kind hfirst.kind) <| .cons (.ue _ hfirst.value) <|
      hback.map (first :: ·)

theorem readsBack_list {multiview used : Bool} {steps : List PicNumModification}
    (flagName : String) (h : LegalList multiview used steps) :
    ReadsBack (readList multiview used flagName) (listElements used steps) steps := by
  unfold readList listElements
  cases used with
  | false =>
    rw [h.used rfl]
    exact .pure []
  | true =>
    rw [if_pos rfl]
    cases steps with
    | nil => exact .cons (.flag _ false) (.pure [])
    | cons first rest =>
      exact .cons (.flag _ true) (readsBack_steps h.count h.steps)

theorem readsBack {type : SliceType} {multiview : Bool} {modification : RefPicListModification}
    (h : modification.Legal type multiview) :
    ReadsBack (read type multiview) (modification.elements type) modification := by
  unfold read elements
  exact .bind (readsBack_list _ h.l0) <| .of_append_nil <| .bind (readsBack_list _ h.l1) <|
    .pure _

end RefPicListModification

/-! ## Prediction weights -/

/-- A legal weight and offset. -/
structure PredWeight.Legal (pair : PredWeight) : Prop where
  weight : -128 ≤ pair.weight ∧ pair.weight ≤ 127
  offset : -128 ≤ pair.offset ∧ pair.offset ≤ 127

/-- Legal weights of one picture. -/
structure PredWeightEntry.Legal (hasChroma : Bool) (entry : PredWeightEntry) : Prop where
  luma : ∀ pair ∈ entry.luma, pair.Legal
  chroma : ∀ planes ∈ entry.chroma, planes.1.Legal ∧ planes.2.Legal
  chromaSent : hasChroma = false → entry.chroma = none

/-- Legal weights of a slice that refers to so many pictures. -/
structure PredWeightTable.Legal (type : SliceType) (hasChroma : Bool) (l0Count l1Count : Nat)
    (table : PredWeightTable) : Prop where
  lumaLog2WeightDenom : table.lumaLog2WeightDenom ≤ 7
  chromaSent : table.chromaLog2WeightDenom.isSome = hasChroma
  chromaLog2WeightDenom : ∀ denom ∈ table.chromaLog2WeightDenom, denom ≤ 7
  l0Count : table.l0.length = l0Count
  l1Count : table.l1.length = if type.usesL1 then l1Count else 0
  l0 : ∀ entry ∈ table.l0, entry.Legal hasChroma
  l1 : ∀ entry ∈ table.l1, entry.Legal hasChroma

theorem PredWeight.readsBack {pair : PredWeight} (component list : String) (h : pair.Legal) :
    ReadsBack (PredWeight.read component list) pair.elements pair :=
  .cons (.seRange _ h.weight (by decide) (by decide)) <|
    .cons (.seRange _ h.offset (by decide) (by decide)) <| .pure _

theorem PredWeightEntry.readsBack {hasChroma : Bool} {entry : PredWeightEntry} (list : String)
    (h : entry.Legal hasChroma) :
    ReadsBack (PredWeightEntry.read hasChroma list) (entry.elements hasChroma) entry := by
  have hplanes : ∀ planes ∈ entry.chroma, ReadsBack
      (return (← PredWeight.read "chroma" list, ← PredWeight.read "chroma" list))
      (planes.1.elements ++ planes.2.elements) planes := by
    intro planes hsent
    obtain ⟨hfirst, hsecond⟩ := h.chroma planes hsent
    exact .bind (PredWeight.readsBack _ _ hfirst) <|
      .of_append_nil <| .bind (PredWeight.readsBack _ _ hsecond) <| .pure planes
  have hchroma : ReadsBack
      (if hasChroma = true then Read.flagged s!"chroma_weight_{list}_flag"
        (return (← PredWeight.read "chroma" list, ← PredWeight.read "chroma" list))
      else Pure.pure none)
      (if hasChroma = true then
        Element.flagged (fun planes => planes.1.elements ++ planes.2.elements) entry.chroma
      else []) entry.chroma := .sentIf (fun _ => .flagged _ hplanes) h.chromaSent
  unfold PredWeightEntry.read PredWeightEntry.elements
  refine .bind (.flagged _ fun pair hsent => PredWeight.readsBack _ _ (h.luma pair hsent)) ?_
  exact .of_append_nil <| .branch hchroma <| .pure _

theorem PredWeightTable.readsBack {type : SliceType} {hasChroma : Bool} {l0Count l1Count : Nat}
    {table : PredWeightTable} (h : table.Legal type hasChroma l0Count l1Count) :
    ReadsBack (PredWeightTable.read type hasChroma l0Count l1Count) (table.elements hasChroma)
      table := by
  unfold PredWeightTable.read PredWeightTable.elements
  rw [List.flatMap_append, Element.sent_map]
  simp only [List.cons_append, List.nil_append]
  refine .cons (.ueMax _ h.lumaLog2WeightDenom (by decide)) ?_
  refine .bind (.optional h.chromaSent fun denom hsent =>
    .ueMax _ (h.chromaLog2WeightDenom denom hsent) (by decide)) ?_
  refine .bind (.times h.l0Count fun x hx => PredWeightEntry.readsBack _ (h.l0 x hx)) ?_
  refine .of_append_nil <| .bind (.times h.l1Count fun x hx => ?_) <| .pure _
  exact PredWeightEntry.readsBack _ (h.l1 x hx)

/-! ## Marking of reference pictures -/

/-- A legal operation, whose operands have a code. -/
def MemoryManagementOp.Legal : MemoryManagementOp → Prop
  | unmarkShortTerm differenceOfPicNumsMinus1 =>
    differenceOfPicNumsMinus1 ≤ Codeword.maxCodeNumber
  | unmarkLongTerm longTermPicNum => longTermPicNum ≤ Codeword.maxCodeNumber
  | assignLongTerm differenceOfPicNumsMinus1 longTermFrameIdx =>
    differenceOfPicNumsMinus1 ≤ Codeword.maxCodeNumber ∧
      longTermFrameIdx ≤ Codeword.maxCodeNumber
  | limitLongTerm maxLongTermFrameIdxPlus1 => maxLongTermFrameIdxPlus1 ≤ Codeword.maxCodeNumber
  | unmarkAll => True
  | markCurrentLongTerm longTermFrameIdx => longTermFrameIdx ≤ Codeword.maxCodeNumber

/-- A legal marking of a picture that is or is not an instantaneous refresh. -/
def DecRefPicMarking.Legal (idr : Bool) : DecRefPicMarking → Prop
  | .idr _ _ => idr = true
  | slidingWindow => idr = false
  | adaptive operations =>
    idr = false ∧ operations.length ≤ maxOperations ∧ ∀ op ∈ operations, op.Legal

namespace DecRefPicMarking

theorem readsBack_code {code : Nat} (h : code ≤ maxCode) :
    ReadsBack readCode [.ue code] code := by
  unfold readCode
  exact .cons (.ue _ (Nat.le_trans h (by decide))) <| .guard (Nat.not_lt.mpr h) <| .pure code

theorem code_range (op : MemoryManagementOp) : op.code ≠ 0 ∧ op.code ≤ maxCode := by
  cases op <;> simp [MemoryManagementOp.code, maxCode]

/-- After its code an operation sends its operands. -/
theorem readsBack_operands {op : MemoryManagementOp} (h : op.Legal) : ∃ operands,
    op.elements = .ue op.code :: operands ∧
      ReadsBack (MemoryManagementOp.readOperands op.code) operands op := by
  cases op with
  | unmarkShortTerm difference => exact ⟨_, rfl, .cons (.ue _ h) (.pure _)⟩
  | unmarkLongTerm picNum => exact ⟨_, rfl, .cons (.ue _ h) (.pure _)⟩
  | assignLongTerm difference frameIdx =>
    exact ⟨_, rfl, .cons (.ue _ h.1) <| .cons (.ue _ h.2) (.pure _)⟩
  | limitLongTerm maxFrameIdx => exact ⟨_, rfl, .cons (.ue _ h) (.pure _)⟩
  | unmarkAll => exact ⟨_, rfl, .pure _⟩
  | markCurrentLongTerm frameIdx => exact ⟨_, rfl, .cons (.ue _ h) (.pure _)⟩

theorem readsBack_operations {budget : Nat} {operations : List MemoryManagementOp}
    (hcount : operations.length ≤ budget) (h : ∀ op ∈ operations, op.Legal) :
    ReadsBack (readOperations budget)
      (operations.flatMap MemoryManagementOp.elements ++ [.ue 0]) operations := by
  have hend : ReadsBack readCode [.ue 0] 0 := readsBack_code (by decide)
  induction operations generalizing budget with
  | nil =>
    -- as in a list of steps, the end is sent whether or not more may follow
    cases budget with
    | zero => exact .cons hend (.pure [])
    | succ budget => exact .cons hend (.pure [])
  | cons first rest ih =>
    obtain ⟨budget, rfl⟩ : ∃ n, budget = n + 1 :=
      ⟨budget - 1, by rw [List.length_cons] at hcount; omega⟩
    obtain ⟨hfirst, hrest⟩ := List.forall_mem_cons.mp h
    obtain ⟨operands, helements, hoperands⟩ := readsBack_operands hfirst
    obtain ⟨hmore, hcode⟩ := code_range first
    have hback := ih (Nat.le_of_succ_le_succ hcount) hrest
    unfold readOperations
    rw [List.flatMap_cons, helements, List.append_assoc]
    refine .cons (readsBack_code hcode) ?_
    rw [if_neg hmore]
    exact .bind hoperands <| hback.map (first :: ·)

theorem readsBack {idr : Bool} {marking : DecRefPicMarking} (h : marking.Legal idr) :
    ReadsBack (read idr) marking.elements marking := by
  unfold read
  cases marking with
  | idr noOutput longTerm =>
    have hidr : idr = true := h
    rw [if_pos hidr]
    exact .cons (.flag _ _) <| .cons (.flag _ _) <| .pure _
  | slidingWindow =>
    have hidr : idr = false := h
    rw [if_neg (Bool.eq_false_iff.mp hidr)]
    exact .cons (.flag _ _) <| .pure _
  | adaptive operations =>
    obtain ⟨hidr, hcount, hoperations⟩ := h
    rw [if_neg (Bool.eq_false_iff.mp hidr)]
    exact .cons (.flag _ _) <| (readsBack_operations hcount hoperations).map adaptive

end DecRefPicMarking

end H264
