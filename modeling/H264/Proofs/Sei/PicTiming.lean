import H264.Proofs.Sei.BufferingPeriod
import H264.Proofs.Sei.ClockTimestamp
import H264.Proofs.Sps.Vui
import H264.Sei.PicTiming

/-!
# Picture timings that are read

What a picture timing holds depends on the sequence: `PicTiming.Legal` says which timings fit it,
and `PicTiming.SentBy` in which elements they are sent. **Main statement**
(`timing_messages_read_iff`): buffering periods and picture timings are read just from their
elements, in the widths of the sequence, and an end.
-/

namespace H264

open Read (Holds)

/-! ## Some timestamps -/

namespace ClockTimestamp

/-- Some timestamps with the elements in which they are sent, each after a flag that says whether it
is there. -/
inductive AllSentBy (length : Nat) : List (Option ClockTimestamp) → List Element → Prop
  | nil : AllSentBy length [] []
  | absent {others : List (Option ClockTimestamp)} {back : List Element} :
      AllSentBy length others back → AllSentBy length (none :: others) (.flag false :: back)
  | present {timestamp : ClockTimestamp} {others : List (Option ClockTimestamp)}
      {part back : List Element} : timestamp.SentBy length part → AllSentBy length others back →
      AllSentBy length (some timestamp :: others) (.flag true :: part ++ back)

theorem allSentBy_elements (length : Nat) (timestamps : List (Option ClockTimestamp)) :
    AllSentBy length timestamps (timestamps.flatMap (Element.flagged (elements length))) := by
  induction timestamps with
  | nil => exact .nil
  | cons first others ih =>
    rw [List.flatMap_cons]
    cases first with
    | none => exact .absent ih
    | some timestamp => exact .present (sentBy_elements length timestamp) ih

theorem takes_allSentBy (length count : Nat) :
    Takes (Read.times (Read.flagged "clock_timestamp_flag" (read length)) count)
      fun timestamps elements => timestamps.length = count ∧
        (∀ entry ∈ timestamps, ∀ timestamp ∈ entry, timestamp.Legal length) ∧
        AllSentBy length timestamps elements := by
  induction count with
  | zero => exact .pure ⟨rfl, List.forall_mem_nil _, .nil⟩
  | succ count ih =>
    unfold Read.times
    refine (Takes.flagged (takes_sentBy length) _).bind fun first front ⟨part, hfront, hfirst⟩ => ?_
    refine ih.bind fun others back ⟨hcount, hlegal, hothers⟩ => .pure ?_
    rw [hfront, List.append_nil]
    refine ⟨congrArg (· + 1) hcount, List.forall_mem_cons.mpr ⟨?_, hlegal⟩, ?_⟩
    · rintro timestamp rfl
      exact hfirst.1
    · -- without the flag nothing else was taken
      cases first with
      | none =>
        obtain rfl : part = [] := hfirst
        exact .absent hothers
      | some timestamp => exact .present hfirst.2 hothers

theorem readsBack_allSentBy {length : Nat} {timestamps : List (Option ClockTimestamp)}
    {elements : List Element} (h : AllSentBy length timestamps elements)
    (hlegal : ∀ entry ∈ timestamps, ∀ timestamp ∈ entry, timestamp.Legal length) :
    ReadsBack (Read.times (Read.flagged "clock_timestamp_flag" (read length)) timestamps.length)
      elements timestamps := by
  induction h with
  | nil => exact .pure []
  | absent _ ih =>
    obtain ⟨-, hothers⟩ := List.forall_mem_cons.mp hlegal
    have hfirst : ReadsBack (Read.flagged "clock_timestamp_flag" (read length)) [.flag false] none :=
      .cons (.flag _ false) (.pure none)
    exact hfirst.bind ((ih hothers).map (none :: ·))
  | @present timestamp others part back hsent _ ih =>
    obtain ⟨hfirst, hothers⟩ := List.forall_mem_cons.mp hlegal
    have hflagged : ReadsBack (Read.flagged "clock_timestamp_flag" (read length))
        (.flag true :: part) (some timestamp) :=
      .cons (.flag _ true) ((readsBack_sentBy (hfirst timestamp rfl) hsent).map some)
    exact hflagged.bind ((ih hothers).map (some timestamp :: ·))

end ClockTimestamp

/-! ## Widths and the structure of a picture -/

/-- Fields in the widths of valid buffer parameters can be read, so that they hold all values of
their range. -/
theorem HrdParameters.Valid.readable {hrd : HrdParameters} (h : hrd.Valid) :
    hrd.initialCpbRemovalDelayLengthMinus1 + 1 ≤ Read.maxWidth ∧
      hrd.cpbRemovalDelayLengthMinus1 + 1 ≤ Read.maxWidth ∧
      hrd.dpbOutputDelayLengthMinus1 + 1 ≤ Read.maxWidth ∧ hrd.timeOffsetLength ≤ Read.maxWidth :=
  ⟨h.initialCpbRemovalDelayLengthMinus1, h.cpbRemovalDelayLengthMinus1,
    h.dpbOutputDelayLengthMinus1, Nat.le_of_lt h.timeOffsetLength⟩

theorem PicStruct.ofCode?_eq_some_iff {code : Nat} {picStruct : PicStruct} :
    ofCode? code = some picStruct ↔ picStruct.code = code := by
  constructor
  · intro h
    unfold ofCode? at h
    split at h
    all_goals cases h
    all_goals rfl
  · rintro rfl
    cases picStruct <;> rfl

namespace PicTiming

theorem accepts_struct :
    Accepts readStruct (fun _ => True) fun picStruct => [.u 4 picStruct.code] := by
  unfold readStruct
  refine .part (.bits _ _) fun code _ => ?_
  cases hstruct : PicStruct.ofCode? code with
  | none => exact .fail _ _
  | some picStruct =>
    refine .pure ⟨trivial, ?_⟩
    show [Element.u 4 code] = [Element.u 4 picStruct.code]
    rw [PicStruct.ofCode?_eq_some_iff.mp hstruct]

theorem readsBack_struct (picStruct : PicStruct) :
    ReadsBack readStruct [.u 4 picStruct.code] picStruct := by
  have hcode : picStruct.code < 2 ^ 4 := by cases picStruct <;> decide
  unfold readStruct
  refine .cons (.bits _ (by decide) hcode) ?_
  rw [PicStruct.ofCode?_eq_some_iff.mpr rfl]
  exact .pure _

/-! ## The delays -/

/-- Delays in the widths of some buffer parameters. -/
structure LegalDelays (hrd : HrdParameters) (delays : PicTimingDelays) : Prop where
  cpbRemoval : Holds (hrd.cpbRemovalDelayLengthMinus1 + 1) delays.cpbRemovalDelay
  dpbOutput : Holds (hrd.dpbOutputDelayLengthMinus1 + 1) delays.dpbOutputDelay

/-- The delays, if there are buffer parameters. -/
def readDelays? : Option HrdParameters → Read (Option PicTimingDelays)
  | some hrd => some <$> readDelays hrd
  | none => pure none

/-- The elements of the delays, if there are buffer parameters. -/
def delayElements? (hrd : Option HrdParameters) (delays : Option PicTimingDelays) : List Element :=
  match hrd, delays with
  | some hrd, some delays => delayElements hrd delays
  | _, _ => []

theorem accepts_delays (hrd : Option HrdParameters) :
    Accepts (readDelays? hrd) (fun delays => delays.isSome = hrd.isSome ∧
      ∀ parameters ∈ hrd, ∀ sent ∈ delays, LegalDelays parameters sent) (delayElements? hrd) := by
  cases hrd with
  | none => exact .pure ⟨⟨rfl, nofun⟩, rfl⟩
  | some parameters =>
    refine .map (.part (.held _ _) fun removal hremoval => .part (.held _ _) fun output houtput => ?_)
    refine .pure ⟨⟨rfl, ?_⟩, rfl⟩
    rintro _ ⟨⟩ _ ⟨⟩
    exact ⟨hremoval, houtput⟩

theorem readsBack_delays {hrd : Option HrdParameters} {delays : Option PicTimingDelays}
    (hsent : delays.isSome = hrd.isSome)
    (hdelays : ∀ parameters ∈ hrd, ∀ sent ∈ delays, LegalDelays parameters sent) :
    ReadsBack (readDelays? hrd) (delayElements? hrd delays) delays := by
  cases hrd with
  | none =>
    obtain rfl : delays = none := Option.not_isSome_iff_eq_none.mp (Bool.eq_false_iff.mp hsent)
    exact .pure none
  | some parameters =>
    obtain ⟨sent, rfl⟩ := Option.isSome_iff_exists.mp hsent
    obtain ⟨hremoval, houtput⟩ := hdelays _ rfl _ rfl
    exact .map some (.cons (.held _ hremoval) <| .cons (.held _ houtput) <| .pure sent)

/-! ## Legal timings -/

/-- The buffer parameters that the timings of a sequence follow. -/
def hrd? (sps : SeqParameterSet) : Option HrdParameters :=
  sps.vui.bind VuiParameters.hrd?

/-- The width of the offsets of the timestamps in a sequence. -/
def timeOffsetLength (sps : SeqParameterSet) : Nat :=
  ((hrd? sps).map HrdParameters.timeOffsetLength).getD defaultTimeOffsetLength

/-- A timing that fits a sequence. -/
structure Legal (sps : SeqParameterSet) (timing : PicTiming) : Prop where
  delaysSent : timing.delays.isSome = (hrd? sps).isSome
  delays : ∀ hrd ∈ hrd? sps, ∀ delays ∈ timing.delays, LegalDelays hrd delays
  structSent : timing.picStruct.isSome = sps.vui.any VuiParameters.picStructPresent
  count : timing.timestamps.length =
    (timing.picStruct.map PicStruct.clockTimestampCount).getD 0
  timestamps : ∀ entry ∈ timing.timestamps, ∀ timestamp ∈ entry,
    timestamp.Legal (timeOffsetLength sps)

/-- The elements of a timing, with one of the numbers of each counting type. -/
def SentBy (sps : SeqParameterSet) (timing : PicTiming) (elements : List Element) : Prop :=
  ∃ back, ClockTimestamp.AllSentBy (timeOffsetLength sps) timing.timestamps back ∧
    elements = delayElements? (hrd? sps) timing.delays ++
      Element.sent (fun picStruct => [.u 4 picStruct.code]) timing.picStruct ++ back

theorem sentBy_elements (sps : SeqParameterSet) (timing : PicTiming) :
    timing.SentBy sps (timing.elements sps) :=
  ⟨_, ClockTimestamp.allSentBy_elements _ _, rfl⟩

/-! ## The payload -/

/-- The fields of a timing. -/
def readFields (sps : SeqParameterSet) : Read PicTiming := do
  let delays ← readDelays? (hrd? sps)
  let picStruct ← Read.optional (sps.vui.any VuiParameters.picStructPresent) readStruct
  let timestamps ← Read.times
    (Read.flagged "clock_timestamp_flag" (ClockTimestamp.read (timeOffsetLength sps)))
    ((picStruct.map PicStruct.clockTimestampCount).getD 0)
  return { delays, picStruct, timestamps }

theorem readPayload_eq (sps : SeqParameterSet) :
    readPayload sps = Read.ended (readFields sps) := by
  unfold readPayload readFields Read.ended timeOffsetLength hrd?
  cases sps.vui.bind VuiParameters.hrd? <;> simp only [readDelays?, bind_assoc, pure_bind]

theorem takes_fields (sps : SeqParameterSet) : Takes (readFields sps) fun timing elements =>
    timing.Legal sps ∧ timing.SentBy sps elements := by
  unfold readFields
  refine .part (accepts_delays _) fun delays ⟨hdelaysSent, hdelays⟩ => ?_
  refine .part (.optional accepts_struct _) fun picStruct ⟨hstructSent, _⟩ => ?_
  refine (ClockTimestamp.takes_allSentBy _ _).bind fun timestamps back ⟨hcount, hlegal, hsent⟩ => ?_
  refine .pure ⟨⟨hdelaysSent, hdelays, hstructSent, hcount, hlegal⟩, back, hsent, ?_⟩
  rw [List.append_nil, List.append_assoc]

theorem readsBack_fields {sps : SeqParameterSet} {timing : PicTiming} {elements : List Element}
    (hlegal : timing.Legal sps) (hsent : timing.SentBy sps elements) :
    ReadsBack (readFields sps) elements timing := by
  obtain ⟨back, hback, rfl⟩ := hsent
  unfold readFields
  rw [List.append_assoc]
  refine .bind (readsBack_delays hlegal.delaysSent hlegal.delays) ?_
  refine .bind (.optional hlegal.structSent fun picStruct _ => readsBack_struct picStruct) ?_
  -- the structure announces as many timestamps as the timing has
  rw [← hlegal.count]
  exact .of_append_nil (.bind (ClockTimestamp.readsBack_allSentBy hback hlegal.timestamps) (.pure _))

/-- A message is read as a timing just if it carries elements of the timing and an end. -/
theorem ofMessage_eq_ok_iff {sps : SeqParameterSet} {message : SeiMessage} {timing : PicTiming} :
    ofMessage sps message = .ok timing ↔ message.type = .picTiming ∧ timing.Legal sps ∧
      ∃ elements ending, timing.SentBy sps elements ∧ PayloadEnd ending ∧
        Bytes.bits message.payload = Element.bits elements ++ ending := by
  unfold ofMessage
  rw [SeiMessage.bind_payloadAs_eq_ok_iff, readPayload_eq,
    Read.value_ended_iff (takes_fields sps) fun _ _ h => readsBack_fields h.1 h.2]
  refine and_congr_right fun _ => ⟨?_, ?_⟩
  · rintro ⟨elements, ending, ⟨hlegal, hsent⟩, hend⟩
    exact ⟨hlegal, elements, ending, hsent, hend⟩
  · rintro ⟨hlegal, elements, ending, hsent, hend⟩
    exact ⟨elements, ending, ⟨hlegal, hsent⟩, hend⟩

theorem ofMessage_picTiming (sps : SeqParameterSet) (payload : Bytes) :
    ofMessage sps ⟨.picTiming, payload⟩ = Read.value (Read.ended (readFields sps)) payload := by
  unfold ofMessage
  rw [readPayload_eq]
  rfl

end PicTiming

/-! ## Main statement -/

/-- **Messages of buffering and timing**, in every sequence. A buffering period is read just from its
elements and an end, in the widths of the sequence that it names. So is a picture timing: every
timing that fits its sequence is read back from what a writer makes of it, closed or, where its
elements fill their bytes, as it is; and a one bit after the one of the end is an error. -/
theorem timing_messages_read_iff :
    (∀ (sets : ParamSets) (message : SeiMessage) (period : BufferingPeriod),
      BufferingPeriod.ofMessage sets message = .ok period ↔ message.type = .bufferingPeriod ∧
        ∃ sps ending, sets.sps? period.spsId = some sps ∧ period.Legal sps ∧ PayloadEnd ending ∧
          Bytes.bits message.payload = Element.bits (period.elements sps) ++ ending) ∧
    ∀ sps : SeqParameterSet,
      (∀ (message : SeiMessage) (timing : PicTiming),
        PicTiming.ofMessage sps message = .ok timing ↔ message.type = .picTiming ∧
          timing.Legal sps ∧ ∃ elements ending, timing.SentBy sps elements ∧ PayloadEnd ending ∧
            Bytes.bits message.payload = Element.bits elements ++ ending) ∧
      (∀ (timing : PicTiming) (elements : List Element) (payload : Bytes) (tail : List Bool),
        timing.Legal sps → timing.SentBy sps elements → true ∈ tail →
        Bytes.bits payload = Element.bits elements ++ true :: tail →
          PicTiming.ofMessage sps ⟨.picTiming, payload⟩ =
            .error (.illegal "sei_payload" tail.length .nothingAfterPayloadEnd)) ∧
      ∀ timing : PicTiming, timing.Legal sps →
        ∃ w, Element.writeAll {} (timing.elements sps) = .ok w ∧
          (∀ zeros, PicTiming.ofMessage sps
            ⟨.picTiming, w.trailing.toBytes ++ List.replicate zeros 0⟩ = .ok timing) ∧
          (w.bits.length % 8 = 0 →
            PicTiming.ofMessage sps ⟨.picTiming, w.toBytes⟩ = .ok timing) := by
  refine ⟨fun sets message period => BufferingPeriod.ofMessage_eq_ok_iff, fun sps => ⟨?_, ?_, ?_⟩⟩
  · exact fun message timing => PicTiming.ofMessage_eq_ok_iff
  · intro timing elements payload tail hlegal hsent hone hbits
    rw [PicTiming.ofMessage_picTiming]
    exact Read.value_ended_of_later_one (PicTiming.readsBack_fields hlegal hsent) hone hbits
  · intro timing hlegal
    simp only [PicTiming.ofMessage_picTiming]
    exact Read.exists_writer_ended
      (PicTiming.readsBack_fields hlegal (PicTiming.sentBy_elements sps timing))

/-- A full timestamp with a negative offset, in a sequence with buffer parameters, whose counting
type is sent as the reserved number 9. -/
theorem timing_messages_read_iff_fullTimestamp :
    let hrd : HrdParameters := { (default : HrdParameters) with
      cpbSpecs := [default], cpbRemovalDelayLengthMinus1 := 23, dpbOutputDelayLengthMinus1 := 23
      timeOffsetLength := 24 }
    let vui : VuiParameters := { nalHrd := some hrd, picStructPresent := true }
    let sps : SeqParameterSet := { (default : SeqParameterSet) with vui := some vui }
    let timestamp : ClockTimestamp := { (default : ClockTimestamp) with
      scanType := .interlaced, countingType := .reserved, frameNumber := 12
      time := .full 30 15 10, timeOffset := some (-5) }
    let timing : PicTiming :=
      { delays := some ⟨2, 4⟩, picStruct := some .topBottom, timestamps := [some timestamp, none] }
    hrd.Valid ∧ timing.Legal sps ∧ PicTiming.ofMessage sps
      ⟨.picTiming, [0, 0, 2, 0, 0, 4, 0x3a, 0x4c, 0x0c, 0x78, 0xf5, 0x7f, 0xff, 0xfd, 0xa0]⟩ =
        .ok timing := by
  intro hrd vui sps timestamp timing
  have hspec : ∀ spec ∈ hrd.cpbSpecs, spec.Valid := by
    intro spec hspec
    obtain rfl := List.mem_singleton.mp hspec
    exact ⟨by decide, by decide⟩
  have hhrd : hrd.Valid :=
    ⟨by decide, by decide, by decide, hspec, by decide, by decide, by decide, by decide⟩
  obtain ⟨-, hremoval, houtput, hoffset⟩ := hhrd.readable
  have hstamp : timestamp.Legal 24 := by
    refine ⟨by decide, (ClockTime.check_eq_ok_iff _).mp rfl, rfl, ?_⟩
    rintro _ ⟨⟩
    exact ⟨by decide, hoffset, by omega, by omega⟩
  have hlegal : timing.Legal sps := by
    refine ⟨rfl, ?_, rfl, rfl, ?_⟩
    · rintro _ ⟨⟩ _ ⟨⟩
      exact ⟨⟨hremoval, by decide⟩, ⟨houtput, by decide⟩⟩
    · rintro entry hentry found ⟨⟩
      obtain rfl : found = timestamp := by simpa [timing] using hentry
      exact hstamp
  have hsent : timing.SentBy sps _ :=
    ⟨_, .present ⟨9, by decide, rfl, rfl⟩ (.absent .nil), rfl⟩
  have hend : PayloadEnd [true, false, false, false, false, false] := .inr ⟨5, rfl⟩
  have hread := (timing_messages_read_iff.2 sps).1
  exact ⟨hhrd, hlegal, (hread _ timing).mpr ⟨rfl, hlegal, _, _, hsent, hend, by decide +kernel⟩⟩

end H264
