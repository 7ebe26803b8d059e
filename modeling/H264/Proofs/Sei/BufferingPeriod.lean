import H264.Proofs.Sei.Payloads
import H264.Sei.BufferingPeriod

/-!
# Buffering periods that are read

A buffering period names a sequence, and the sequence says how many delays follow and how wide they
are. `BufferingPeriod.Legal` says which periods fit a sequence. Main statement
(`ofMessage_eq_ok_iff`): a message is read as a period just if its payload is the elements of this
period, in the widths of the sequence that it names, and an end.
-/

namespace H264

open Read (Holds)

namespace BufferingPeriod

/-! ## Legal periods -/

/-- A pair of delays whose fields have `width` bits. -/
structure LegalRemoval (width : Nat) (removal : InitialCpbRemoval) : Prop where
  delay : Holds width removal.delay
  delayOffset : Holds width removal.delayOffset

/-- The delays for one kind of buffer parameters: a pair for each buffer, just if there are such
parameters. -/
structure LegalRemovals (hrd : Option HrdParameters) (removals : Option (List InitialCpbRemoval)) :
    Prop where
  sent : removals.isSome = hrd.isSome
  count : ∀ parameters ∈ hrd, ∀ pairs ∈ removals, pairs.length = parameters.cpbSpecs.length
  pairs : ∀ parameters ∈ hrd, ∀ pairs ∈ removals, ∀ removal ∈ pairs,
    LegalRemoval (parameters.initialCpbRemovalDelayLengthMinus1 + 1) removal

/-- A period that fits a sequence. -/
structure Legal (sps : SeqParameterSet) (period : BufferingPeriod) : Prop where
  spsId : period.spsId ≤ maxSpsId
  nalHrd : LegalRemovals (sps.vui.bind VuiParameters.nalHrd) period.nalHrd
  vclHrd : LegalRemovals (sps.vui.bind VuiParameters.vclHrd) period.vclHrd

/-! ## The delays -/

theorem accepts_removal (width : Nat) :
    Accepts (readRemoval width) (LegalRemoval width) fun removal =>
      [.u width removal.delay, .u width removal.delayOffset] := by
  unfold readRemoval
  refine .part (.held _ _) fun delay hdelay => .part (.held _ _) fun delayOffset hoffset => ?_
  exact .pure ⟨⟨hdelay, hoffset⟩, rfl⟩

theorem readsBack_removal {width : Nat} {removal : InitialCpbRemoval}
    (h : LegalRemoval width removal) :
    ReadsBack (readRemoval width) [.u width removal.delay, .u width removal.delayOffset] removal := by
  unfold readRemoval
  exact .cons (.held _ h.delay) <| .cons (.held _ h.delayOffset) <| .pure _

theorem accepts_removals (hrd : Option HrdParameters) :
    Accepts (readRemovals hrd) (LegalRemovals hrd) (hrdElements hrd) := by
  cases hrd with
  | none => exact .pure ⟨⟨rfl, nofun, nofun⟩, rfl⟩
  | some parameters =>
    refine .part (.times (accepts_removal _) _) fun pairs ⟨hcount, hpairs⟩ => .pure ⟨⟨rfl, ?_, ?_⟩, ?_⟩
    · rintro _ ⟨⟩ _ ⟨⟩
      exact hcount
    · rintro _ ⟨⟩ _ ⟨⟩
      exact hpairs
    · exact List.append_nil _

theorem readsBack_removals {hrd : Option HrdParameters} {removals : Option (List InitialCpbRemoval)}
    (h : LegalRemovals hrd removals) :
    ReadsBack (readRemovals hrd) (hrdElements hrd removals) removals := by
  cases hrd with
  | none =>
    obtain rfl : removals = none := Option.not_isSome_iff_eq_none.mp (Bool.eq_false_iff.mp h.sent)
    exact .pure _
  | some parameters =>
    obtain ⟨pairs, rfl⟩ := Option.isSome_iff_exists.mp h.sent
    refine .of_append_nil (.bind (.times (h.count _ rfl _ rfl) fun removal hremoval => ?_) (.pure _))
    exact readsBack_removal (h.pairs _ rfl _ rfl removal hremoval)

/-! ## The payload -/

/-- The fields of a period. -/
def readFields (sets : ParamSets) : Read BufferingPeriod := do
  let spsId ← readSpsId
  match sets.sps? spsId with
  | none => throw (.unresolved "seq_parameter_set_id" spsId)
  | some sps =>
    let nalHrd ← readRemovals (sps.vui.bind VuiParameters.nalHrd)
    let vclHrd ← readRemovals (sps.vui.bind VuiParameters.vclHrd)
    return { spsId, nalHrd, vclHrd }

theorem readPayload_eq (sets : ParamSets) : readPayload sets = Read.ended (readFields sets) := by
  unfold readPayload readFields Read.ended
  rw [bind_assoc]
  refine bind_congr fun spsId => ?_
  cases sets.sps? spsId with
  | none => rfl
  | some sps => simp only [bind_assoc, pure_bind]

/-- A period with the elements in which it is sent. -/
def Sent (sets : ParamSets) (period : BufferingPeriod) (elements : List Element) : Prop :=
  ∃ sps, sets.sps? period.spsId = some sps ∧ period.Legal sps ∧ elements = period.elements sps

theorem takes_fields (sets : ParamSets) : Takes (readFields sets) (Sent sets) := by
  unfold readFields readSpsId
  refine .part (.ueMax _ maxSpsId) fun spsId hspsId => ?_
  cases hsps : sets.sps? spsId with
  | none => exact .fail _ _
  | some sps =>
    refine .part (accepts_removals _) fun nalHrd hnalHrd => ?_
    refine .part (accepts_removals _) fun vclHrd hvclHrd => .pure ?_
    refine ⟨sps, hsps, ⟨hspsId, hnalHrd, hvclHrd⟩, ?_⟩
    simp [elements]

theorem readsBack_fields {sets : ParamSets} {period : BufferingPeriod} {elements : List Element}
    (h : Sent sets period elements) : ReadsBack (readFields sets) elements period := by
  obtain ⟨sps, hsps, hlegal, rfl⟩ := h
  unfold readFields BufferingPeriod.elements
  refine .cons (.ueMax _ hlegal.spsId (by decide)) ?_
  rw [hsps]
  refine .bind (readsBack_removals hlegal.nalHrd) <| .of_append_nil ?_
  exact .bind (readsBack_removals hlegal.vclHrd) <| .pure _

/-- A message is read as a period just if it carries the elements of the period and an end. -/
theorem ofMessage_eq_ok_iff {sets : ParamSets} {message : SeiMessage} {period : BufferingPeriod} :
    ofMessage sets message = .ok period ↔ message.type = .bufferingPeriod ∧
      ∃ sps ending, sets.sps? period.spsId = some sps ∧ period.Legal sps ∧ PayloadEnd ending ∧
        Bytes.bits message.payload = Element.bits (period.elements sps) ++ ending := by
  unfold ofMessage
  rw [SeiMessage.bind_payloadAs_eq_ok_iff, readPayload_eq,
    Read.value_ended_iff (takes_fields sets) fun _ _ => readsBack_fields]
  refine and_congr_right fun _ => ⟨?_, ?_⟩
  · rintro ⟨_, ending, ⟨sps, hsps, hlegal, rfl⟩, hend, hbits⟩
    exact ⟨sps, ending, hsps, hlegal, hend, hbits⟩
  · rintro ⟨sps, ending, hsps, hlegal, hend, hbits⟩
    exact ⟨_, ending, ⟨sps, hsps, hlegal, rfl⟩, hend, hbits⟩

end BufferingPeriod

end H264
