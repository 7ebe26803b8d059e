import H264.Sei.ClockTimestamp
import H264.Sei.Message
import H264.Sps.Basic

/-!
# Picture timing

The message that times one picture (D.1.3). What it holds depends on the sequence that is active for
the picture: delays where the sequence has buffer parameters, and a structure with timestamps where
the sequence announces them.
-/

namespace H264

/-- How a picture is shown: which fields, or a frame repeated (Table D-1). -/
inductive PicStruct
  | frame
  | topField
  | bottomField
  | topBottom
  | bottomTop
  | topBottomTop
  | bottomTopBottom
  | frameDoubling
  | frameTripling
deriving DecidableEq, Repr, Inhabited

namespace PicStruct

/-- The structure of a `pic_struct`. -/
def ofCode? : Nat → Option PicStruct
  | 0 => some frame
  | 1 => some topField
  | 2 => some bottomField
  | 3 => some topBottom
  | 4 => some bottomTop
  | 5 => some topBottomTop
  | 6 => some bottomTopBottom
  | 7 => some frameDoubling
  | 8 => some frameTripling
  | _ => none

/-- The `pic_struct` of a structure. -/
def code : PicStruct → Nat
  | frame => 0
  | topField => 1
  | bottomField => 2
  | topBottom => 3
  | bottomTop => 4
  | topBottomTop => 5
  | bottomTopBottom => 6
  | frameDoubling => 7
  | frameTripling => 8

/-- The symbol that names a structure. -/
def symbol : PicStruct → String
  | frame => "FRAME"
  | topField => "TOP_FIELD"
  | bottomField => "BOTTOM_FIELD"
  | topBottom => "TOP_BOTTOM"
  | bottomTop => "BOTTOM_TOP"
  | topBottomTop => "TOP_BOTTOM_TOP"
  | bottomTopBottom => "BOTTOM_TOP_BOTTOM"
  | frameDoubling => "FRAME_DOUBLING"
  | frameTripling => "FRAME_TRIPLING"

/-- The number of timestamps for which a structure has room. -/
def clockTimestampCount : PicStruct → Nat
  | frame | topField | bottomField => 1
  | topBottom | bottomTop | frameDoubling => 2
  | topBottomTop | bottomTopBottom | frameTripling => 3

end PicStruct

/-- When a picture leaves the buffers. -/
structure PicTimingDelays where
  cpbRemovalDelay : Nat
  dpbOutputDelay : Nat
deriving DecidableEq, Repr, Inhabited

/-- The timing of a picture. -/
structure PicTiming where
  delays : Option PicTimingDelays
  picStruct : Option PicStruct
  timestamps : List (Option ClockTimestamp)
deriving DecidableEq, Repr, Inhabited

namespace PicTiming

/-- The width of a timestamp's offset in a sequence without buffer parameters. -/
def defaultTimeOffsetLength : Nat := 24

/-- The delays, in the widths of some buffer parameters. -/
def readDelays (hrd : HrdParameters) : Read PicTimingDelays :=
  return {
    cpbRemovalDelay := ← Read.bits (hrd.cpbRemovalDelayLengthMinus1 + 1) "cpb_removal_delay"
    dpbOutputDelay := ← Read.bits (hrd.dpbOutputDelayLengthMinus1 + 1) "dpb_output_delay" }

/-- The structure of a picture. -/
def readStruct : Read PicStruct := do
  let code ← Read.bits 4 "pic_struct"
  match PicStruct.ofCode? code with
  | some picStruct => return picStruct
  | none => throw (.illegal "pic_struct" code .unstated)

/-- The timing that the payload of a message holds. -/
def readPayload (sps : SeqParameterSet) : Read PicTiming := do
  let hrd? := sps.vui.bind VuiParameters.hrd?
  let delays ← match hrd? with
    | some hrd => some <$> readDelays hrd
    | none => pure none
  let picStruct ← Read.optional (sps.vui.any VuiParameters.picStructPresent) readStruct
  let timeOffsetLength := (hrd?.map HrdParameters.timeOffsetLength).getD defaultTimeOffsetLength
  let timestamps ← Read.times
    (Read.flagged "clock_timestamp_flag" (ClockTimestamp.read timeOffsetLength))
    ((picStruct.map PicStruct.clockTimestampCount).getD 0)
  Read.finishSeiPayload
  return { delays, picStruct, timestamps }

/-- The elements of the delays, in the widths of some buffer parameters. -/
def delayElements (hrd : HrdParameters) (delays : PicTimingDelays) : List Element :=
  [.u (hrd.cpbRemovalDelayLengthMinus1 + 1) delays.cpbRemovalDelay,
   .u (hrd.dpbOutputDelayLengthMinus1 + 1) delays.dpbOutputDelay]

/-- The elements of the timing of a picture of a sequence. -/
def elements (sps : SeqParameterSet) (timing : PicTiming) : List Element :=
  let hrd? := sps.vui.bind VuiParameters.hrd?
  let timeOffsetLength := (hrd?.map HrdParameters.timeOffsetLength).getD defaultTimeOffsetLength
  (match hrd?, timing.delays with
    | some hrd, some delays => delayElements hrd delays
    | _, _ => []) ++
  Element.sent (fun picStruct => [.u 4 picStruct.code]) timing.picStruct ++
  timing.timestamps.flatMap (Element.flagged (ClockTimestamp.elements timeOffsetLength))

/-- The timing in a message. -/
def ofMessage (sps : SeqParameterSet) (message : SeiMessage) : Except Error PicTiming := do
  Read.value (readPayload sps) (← message.payloadAs .picTiming)

end PicTiming

end H264
