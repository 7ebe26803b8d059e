import H264.Bits.Element
import H264.Bits.Reader

/-!
# Clock timestamps

The time of day that a picture carries. Hours are given only with minutes and minutes only with
seconds; a full timestamp has all three.
-/

namespace H264

/-- How the picture was scanned. -/
inductive ScanType
  | progressive
  | interlaced
  | unknown
  | reserved
deriving DecidableEq, Repr, Inhabited

namespace ScanType

/-- The scan type of a `ct_type` of two bits. -/
def ofCode : Nat → ScanType
  | 0 => progressive
  | 1 => interlaced
  | 2 => unknown
  | _ => reserved

/-- The `ct_type` of a scan type. -/
def code : ScanType → Nat
  | progressive => 0
  | interlaced => 1
  | unknown => 2
  | reserved => 3

/-- The symbol that names a scan type. -/
def symbol : ScanType → String
  | progressive => "PROGRESSIVE"
  | interlaced => "INTERLACED"
  | unknown => "UNKNOWN"
  | reserved => "RESERVED"

end ScanType

/-- Which frame numbers are left out; 7 and all above it are reserved. -/
inductive CountingType
  | noDroppingNoOffset
  | noDropping
  | droppingIndividualZero
  | droppingIndividualMax
  | droppingTwoLowest
  | droppingIndividual
  | dropping
  | reserved
deriving DecidableEq, Repr, Inhabited

namespace CountingType

/-- The counting type of a `counting_type`. -/
def ofCode : Nat → CountingType
  | 0 => noDroppingNoOffset
  | 1 => noDropping
  | 2 => droppingIndividualZero
  | 3 => droppingIndividualMax
  | 4 => droppingTwoLowest
  | 5 => droppingIndividual
  | 6 => dropping
  | _ => reserved

/-- The counting type of a number that a caller gives, which may not be negative. -/
def ofNumber (number : Int) : Except Misuse CountingType :=
  if 0 ≤ number then .ok (ofCode number.toNat)
  else .error (.noMember (.number number) "CountingType")

/-- The least `counting_type` of a counting type. -/
def code : CountingType → Nat
  | noDroppingNoOffset => 0
  | noDropping => 1
  | droppingIndividualZero => 2
  | droppingIndividualMax => 3
  | droppingTwoLowest => 4
  | droppingIndividual => 5
  | dropping => 6
  | reserved => 7

/-- The symbol that names a counting type. -/
def symbol : CountingType → String
  | noDroppingNoOffset => "NO_DROPPING_NO_OFFSET"
  | noDropping => "NO_DROPPING"
  | droppingIndividualZero => "DROPPING_INDIVIDUAL_ZERO"
  | droppingIndividualMax => "DROPPING_INDIVIDUAL_MAX"
  | droppingTwoLowest => "DROPPING_TWO_LOWEST"
  | droppingIndividual => "DROPPING_INDIVIDUAL"
  | dropping => "DROPPING"
  | reserved => "RESERVED"

end CountingType

/-- As much of the time of day as is given. -/
inductive ClockTime
  | absent
  | seconds (second : Nat)
  | minutes (second minute : Nat)
  | hours (second minute hour : Nat)
  | full (second minute hour : Nat)
deriving DecidableEq, Repr, Inhabited

namespace ClockTime

/-- The second, where it is given. -/
def second? : ClockTime → Option Nat
  | absent => none
  | seconds second | minutes second _ | hours second _ _ | full second _ _ => some second

/-- The minute, where it is given. -/
def minute? : ClockTime → Option Nat
  | absent | seconds _ => none
  | minutes _ minute | hours _ minute _ | full _ minute _ => some minute

/-- The hour, where it is given. -/
def hour? : ClockTime → Option Nat
  | absent | seconds _ | minutes .. => none
  | hours _ _ hour | full _ _ hour => some hour

/-- Whether the time is a full timestamp. -/
def isFull : ClockTime → Bool
  | full .. => true
  | _ => false

/-- A full timestamp. -/
def readFull : Read ClockTime := do
  let second ← Read.bits 6 "seconds_value"
  let minute ← Read.bits 6 "minutes_value"
  let hour ← Read.bits 5 "hours_value"
  return .full second minute hour

/-- A timestamp of parts, each after a flag. -/
def readParts : Read ClockTime := do
  unless ← Read.flag "seconds_flag" do return .absent
  let second ← Read.bits 6 "seconds_value"
  unless ← Read.flag "minutes_flag" do return .seconds second
  let minute ← Read.bits 6 "minutes_value"
  unless ← Read.flag "hours_flag" do return .minutes second minute
  let hour ← Read.bits 5 "hours_value"
  return .hours second minute hour

/-- The elements of a time: the flag of a full timestamp is not among them. -/
def elements : ClockTime → List Element
  | absent => [.flag false]
  | seconds second => [.flag true, .u 6 second, .flag false]
  | minutes second minute => [.flag true, .u 6 second, .flag true, .u 6 minute, .flag false]
  | hours second minute hour =>
    [.flag true, .u 6 second, .flag true, .u 6 minute, .flag true, .u 5 hour]
  | full second minute hour => [.u 6 second, .u 6 minute, .u 5 hour]

/-- Check a part of the time against its greatest value. -/
def checkPart (name : String) (greatest : Nat) (part : Option Nat) : Except Error Unit :=
  match part with
  | some value => if greatest < value then .error (.illegal name value .unstated) else .ok ()
  | none => .ok ()

/-- Check that a time is one of a day. -/
def check (time : ClockTime) : Except Error Unit := do
  checkPart "seconds_value" 59 time.second?
  checkPart "minutes_value" 59 time.minute?
  checkPart "hours_value" 23 time.hour?

end ClockTime

/-- The timestamp of a picture. -/
structure ClockTimestamp where
  scanType : ScanType
  nuitFieldBased : Bool
  countingType : CountingType
  discontinuity : Bool
  cntDropped : Bool
  frameNumber : Nat
  time : ClockTime
  timeOffset : Option Int
deriving DecidableEq, Repr, Inhabited

namespace ClockTimestamp

/-- The offset of a timestamp, in so many bits. -/
def readTimeOffset (timeOffsetLength : Int) : Read Int := do
  Read.signed (← Read.width timeOffsetLength) "time_offset"

/-- A timestamp whose offset has so many bits; without any it is not sent. -/
def read (timeOffsetLength : Int) : Read ClockTimestamp := do
  let scanType := ScanType.ofCode (← Read.bits 2 "ct_type")
  let nuitFieldBased ← Read.flag "nuit_field_based_flag"
  let countingType := CountingType.ofCode (← Read.bits 5 "counting_type")
  let full ← Read.flag "full_timestamp_flag"
  let discontinuity ← Read.flag "discontinuity_flag"
  let cntDropped ← Read.flag "cnt_dropped_flag"
  let frameNumber ← Read.u8 "n_frames"
  let time ← if full then ClockTime.readFull else ClockTime.readParts
  Read.ofExcept time.check
  let timeOffset ← Read.optional (timeOffsetLength != 0) (readTimeOffset timeOffsetLength)
  return { scanType, nuitFieldBased, countingType, discontinuity, cntDropped, frameNumber, time,
           timeOffset }

/-- The elements of a timestamp whose offset has so many bits. -/
def elements (timeOffsetLength : Nat) (timestamp : ClockTimestamp) : List Element :=
  [.u 2 timestamp.scanType.code, .flag timestamp.nuitFieldBased, .u 5 timestamp.countingType.code,
   .flag timestamp.time.isFull, .flag timestamp.discontinuity, .flag timestamp.cntDropped,
   .u 8 timestamp.frameNumber] ++
  timestamp.time.elements ++
  Element.sent (fun offset => [.i timeOffsetLength offset]) timestamp.timeOffset

end ClockTimestamp

end H264
