import H264.ParamSets
import H264.Sei.Message

/-!
# Buffering periods

The message that starts a buffering period (D.1.2): for each coded picture buffer of the sequence it
names, how long its first picture waits.
-/

namespace H264

/-- The first delay of one coded picture buffer. -/
structure InitialCpbRemoval where
  delay : Nat
  delayOffset : Nat
deriving DecidableEq, Repr, Inhabited

/-- The first delays of all buffers, where the sequence has buffer parameters. -/
structure BufferingPeriod where
  spsId : Nat
  nalHrd : Option (List InitialCpbRemoval)
  vclHrd : Option (List InitialCpbRemoval)
deriving DecidableEq, Repr, Inhabited

namespace BufferingPeriod

/-- The delay of one buffer, in fields of `width` bits. -/
def readRemoval (width : Nat) : Read InitialCpbRemoval :=
  return {
    delay := ← Read.bits width "initial_cpb_removal_delay"
    delayOffset := ← Read.bits width "initial_cpb_removal_delay_offset" }

/-- The delays of the buffers of some parameters. -/
def readRemovals : Option HrdParameters → Read (Option (List InitialCpbRemoval))
  | none => return none
  | some hrd => do
    let width := hrd.initialCpbRemovalDelayLengthMinus1 + 1
    return some (← Read.times (readRemoval width) hrd.cpbSpecs.length)

/-- The delays that the payload of a message holds. -/
def readPayload (sets : ParamSets) : Read BufferingPeriod := do
  let spsId ← readSpsId
  match sets.sps? spsId with
  | none => throw (.unresolved "seq_parameter_set_id" spsId)
  | some sps =>
    let nalHrd ← readRemovals (sps.vui.bind VuiParameters.nalHrd)
    let vclHrd ← readRemovals (sps.vui.bind VuiParameters.vclHrd)
    Read.finishSeiPayload
    return { spsId, nalHrd, vclHrd }

/-- The elements of the delays of the buffers of some parameters. -/
def removalElements (hrd : HrdParameters) (removals : List InitialCpbRemoval) : List Element :=
  let width := hrd.initialCpbRemovalDelayLengthMinus1 + 1
  removals.flatMap fun removal => [.u width removal.delay, .u width removal.delayOffset]

/-- The elements of the delays for one kind of buffer parameters of a sequence. -/
def hrdElements (hrd : Option HrdParameters) (removals : Option (List InitialCpbRemoval)) :
    List Element :=
  match hrd, removals with
  | some hrd, some removals => removalElements hrd removals
  | _, _ => []

/-- The elements of the delays in a sequence. -/
def elements (sps : SeqParameterSet) (period : BufferingPeriod) : List Element :=
  .ue period.spsId ::
  hrdElements (sps.vui.bind VuiParameters.nalHrd) period.nalHrd ++
  hrdElements (sps.vui.bind VuiParameters.vclHrd) period.vclHrd

/-- The delays in a message. -/
def ofMessage (sets : ParamSets) (message : SeiMessage) : Except Error BufferingPeriod := do
  Read.value (readPayload sets) (← message.payloadAs .bufferingPeriod)

end BufferingPeriod

end H264
