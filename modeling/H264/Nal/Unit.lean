import H264.Bits.Reader
import H264.Nal.Header
import H264.Rbsp

/-!
# NAL units

A unit is its bytes and the offset at which they stood in the buffer that held them; the offset
shows only in ranges and in the places that errors report. The first byte, or the first four, are
the header, and the rest is the escaped payload.
-/

namespace H264

/-- A unit of a stream. -/
structure NalUnit where
  start : Nat := 0
  bytes : Bytes
deriving DecidableEq, Repr, Inhabited

/-- How many bytes of a unit are its header. -/
inductive HeaderLength
  | byType
  | fixed (count : Nat)
deriving DecidableEq, Repr

namespace NalUnit

/-- The bytes from `start` to before `stop` of a buffer. -/
def slice (buffer : Bytes) (start stop : Nat) : NalUnit where
  start := start
  bytes := (buffer.drop start).take (stop - start)

/-- The unit in a range of a buffer, which has to lie inside it. -/
def ofRange (buffer : Bytes) (start stop : Int) : Except Misuse NalUnit :=
  if 0 ≤ start ∧ start ≤ stop ∧ stop ≤ buffer.length then
    .ok (slice buffer start.toNat stop.toNat)
  else .error (.outsideBuffer start stop buffer.length)

/-- The offset just after the unit. -/
def stop (unit : NalUnit) : Nat :=
  unit.start + unit.bytes.length

/-! ## The header -/

/-- The header of a unit, which has to have a first byte. -/
def header (unit : NalUnit) : Except Error NalHeader :=
  match unit.bytes with
  | [] => .error (.truncated "nal_unit_header")
  | byte :: _ => .ok (.ofByte byte)

/-- The type of a unit. -/
def type (unit : NalUnit) : Except Error UnitType :=
  return (← unit.header).unitType

/-- The type of a unit that has a first byte. -/
def type? (unit : NalUnit) : Option UnitType :=
  unit.bytes.head?.map .ofByte

/-- The header of a unit whose first bit is zero, as it has to be. -/
def checkedHeader (unit : NalUnit) : Except Error NalHeader := do
  let header ← unit.header
  if header.forbiddenZeroBit then throw (.illegal "forbidden_zero_bit" 1 .unstated)
  return header

/-- The header extension of the types that have one. -/
def headerExtension (unit : NalUnit) : Except Error (Option HeaderExtension) := do
  unless (← unit.type).hasHeaderExtension do return none
  match unit.bytes with
  | _ :: first :: second :: third :: _ => return some (.ofBytes first second third)
  | _ => throw (.truncated "nal_unit_header_extension")

/-! ## The payload -/

/-- The number of bytes before the payload; an empty unit has no header. -/
def headerBytes (unit : NalUnit) : HeaderLength → Nat
  | .byType => (unit.type?.map UnitType.headerLength).getD 0
  | .fixed count => count

/-- The escaped payload, with the offset at which it begins. -/
def escapedPayload (unit : NalUnit) (header : HeaderLength) : NalUnit :=
  let count := min (unit.headerBytes header) unit.bytes.length
  { start := unit.start + count, bytes := unit.bytes.drop count }

/-- The payload after a header of given length, escapes removed. -/
def rbspAfter (unit : NalUnit) (header : HeaderLength) : Except Error Bytes :=
  let payload := unit.escapedPayload header
  Rbsp.unescape payload.start payload.bytes

/-- The payload of a unit. -/
def rbsp (unit : NalUnit) : Except Error Bytes :=
  unit.rbspAfter .byType

/-- Read a structure from the payload of a unit. -/
def readRbsp {α : Type} (unit : NalUnit) (action : Read α) : Except Error α := do
  Read.value action (← unit.rbsp)

/-- The unit in one line: its type and length. -/
def summary (unit : NalUnit) : String :=
  let kind := (unit.type?.map UnitType.symbol).getD "EMPTY"
  s!"NALUnit({kind}, {unit.bytes.length} bytes)"

end NalUnit

end H264
