import H264.Bits.Element
import H264.Bits.Reader

/-!
# Hypothetical reference decoder

The buffers that a stream is made for (E.1.2): for each coded picture buffer its rate and size, and
the widths of the delays that timing messages carry.
-/

namespace H264

/-- One coded picture buffer. -/
structure CpbSpec where
  bitRateValueMinus1 : Nat
  cpbSizeValueMinus1 : Nat
  constantBitRate : Bool
deriving DecidableEq, Repr, Inhabited

/-- The buffer parameters of a sequence, one entry per coded picture buffer. -/
structure HrdParameters where
  bitRateScale : Nat
  cpbSizeScale : Nat
  cpbSpecs : List CpbSpec
  initialCpbRemovalDelayLengthMinus1 : Nat
  cpbRemovalDelayLengthMinus1 : Nat
  dpbOutputDelayLengthMinus1 : Nat
  timeOffsetLength : Nat
deriving DecidableEq, Repr, Inhabited

/-- One coded picture buffer. -/
def CpbSpec.read : Read CpbSpec :=
  return {
    bitRateValueMinus1 := ← Read.ue "bit_rate_value_minus1"
    cpbSizeValueMinus1 := ← Read.ue "cpb_size_value_minus1"
    constantBitRate := ← Read.flag "cbr_flag" }

/-- The elements of one coded picture buffer. -/
def CpbSpec.elements (spec : CpbSpec) : List Element :=
  [.ue spec.bitRateValueMinus1, .ue spec.cpbSizeValueMinus1, .flag spec.constantBitRate]

namespace HrdParameters

/-- The buffer parameters. -/
def read : Read HrdParameters := do
  let cpbCntMinus1 ← Read.ueMax "cpb_cnt_minus1" 31
  return {
    bitRateScale := ← Read.bits 4 "bit_rate_scale"
    cpbSizeScale := ← Read.bits 4 "cpb_size_scale"
    cpbSpecs := ← Read.times CpbSpec.read (cpbCntMinus1 + 1)
    initialCpbRemovalDelayLengthMinus1 :=
      ← Read.bits 5 "initial_cpb_removal_delay_length_minus1"
    cpbRemovalDelayLengthMinus1 := ← Read.bits 5 "cpb_removal_delay_length_minus1"
    dpbOutputDelayLengthMinus1 := ← Read.bits 5 "dpb_output_delay_length_minus1"
    timeOffsetLength := ← Read.bits 5 "time_offset_length" }

/-- The elements of the buffer parameters. -/
def elements (hrd : HrdParameters) : List Element :=
  [.ue (hrd.cpbSpecs.length - 1 : Nat), .u 4 hrd.bitRateScale, .u 4 hrd.cpbSizeScale] ++
  hrd.cpbSpecs.flatMap CpbSpec.elements ++
  [.u 5 hrd.initialCpbRemovalDelayLengthMinus1, .u 5 hrd.cpbRemovalDelayLengthMinus1,
   .u 5 hrd.dpbOutputDelayLengthMinus1, .u 5 hrd.timeOffsetLength]

/-- The bit rate of one buffer in bits per second (E-37). -/
def bitRate (hrd : HrdParameters) (spec : CpbSpec) : Nat :=
  (spec.bitRateValueMinus1 + 1) <<< (6 + hrd.bitRateScale)

end HrdParameters

end H264
