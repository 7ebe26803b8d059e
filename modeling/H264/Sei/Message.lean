import H264.Nal.Unit
import H264.Sei.PayloadType

/-!
# Supplemental messages

The payload of a supplemental unit is a sequence of messages, each a type, a size and so many bytes
(7.3.2.3). A number is sent as bytes 255 and a last byte below that, to be added up. What a payload
means is left to whoever knows the sequence that the message belongs to.
-/

namespace H264

/-- A message whose payload has not been decoded. -/
structure SeiMessage where
  type : PayloadType
  payload : Bytes
deriving DecidableEq, Repr, Inhabited

namespace SeiMessage

/-- The message in one line: its type and length. -/
def summary (message : SeiMessage) : String :=
  s!"SeiMessage({message.type.text}, {message.payload.length} bytes)"

/-! ## Reading messages -/

/-- A number in at most `budget` bytes. -/
def readNumber (name : String) : (budget : Nat) → Read Nat
  | 0 => throw (.truncated name)
  | budget + 1 => do
    let byte ← Read.u8 name
    if byte = 255 then return 255 + (← readNumber name budget)
    return byte

/-- One message. -/
def read : Read SeiMessage := do
  let number ← readNumber "last_payload_type_byte" ((← get).bytesLeft + 1)
  let size ← readNumber "last_payload_size_byte" ((← get).bytesLeft + 1)
  let r ← get
  if r.bytesLeft < size then throw (.truncated "sei_payload")
  Read.skip (8 * size) "sei_payload"
  return { type := ⟨number⟩, payload := (r.data.drop (r.pos / 8)).take size }

/-- The messages up to the close, `budget` at most, and the error that ends them early. -/
def collect : (budget : Nat) → Reader → List SeiMessage × Option Error
  | 0, _ => ([], none)
  | budget + 1, r =>
    if r.hasMore then
      match read r with
      | .ok message r =>
        let (messages, error) := collect budget r
        (message :: messages, error)
      | .error error _ => ([], some error)
    else
      match Read.finishRbsp r with
      | .ok _ _ => ([], none)
      | .error error _ => ([], some error)

/-- The messages of a payload, and the error that ends them early; a message fills two bytes at
least, so there are not more messages than bytes. -/
def scan (data : Bytes) : List SeiMessage × Option Error :=
  collect (data.length + 1) (.start data)

/-- The messages of a payload without an error. -/
def messages (data : Bytes) : Except Error (List SeiMessage) :=
  match scan data with
  | (messages, none) => .ok messages
  | (_, some error) => .error error

/-- The messages in a unit. -/
def ofUnit (unit : NalUnit) : Except Error (List SeiMessage) := do
  messages (← unit.rbsp)

/-! ## Writing messages -/

/-- The bytes of a number: as many bytes 255 as it holds, and the rest. -/
def numberBytes (number : Nat) : Bytes :=
  List.replicate (number / 255) 255 ++ [UInt8.ofNat (number % 255)]

/-- The bytes of a message whose type is not negative: its type, its size and its payload. -/
def bytes (message : SeiMessage) : Bytes :=
  numberBytes message.type.number.toNat ++ numberBytes message.payload.length ++ message.payload

/-! ## Reading payloads -/

/-- The payload of a message, which has to have the expected type. -/
def payloadAs (message : SeiMessage) (expected : PayloadType) : Except Error Bytes :=
  if message.type = expected then .ok message.payload
  else .error (.misuse (.wrongPayload expected.text message.summary))

end SeiMessage

end H264
