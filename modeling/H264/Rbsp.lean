import H264.Bits.Basic
import H264.Error

/-!
# Emulation prevention

Inside a unit, two zero bytes followed by a byte of at most 3 would look like framing, so a payload
travels escaped: a byte 3 is put after any two zeros that such a byte follows, and after two zeros
at the end. `escape` inserts these bytes and `strip` takes them out; `fault?` finds the first place
where escaped bytes could not have come from `escape`. `unescape` is the two together.
-/

namespace H264.Rbsp

/-- The byte inserted after two zeros. -/
def escapeByte : UInt8 := 3

/-! ## Inserting escapes -/

/-- The escaped form of a payload after `zeros` zero bytes. -/
def escapeAfter : (zeros : Nat) → Bytes → Bytes
  | zeros, [] => if zeros = 2 then [escapeByte] else []
  | zeros, byte :: rest =>
    if zeros = 2 ∧ byte ≤ 3 then
      escapeByte :: byte :: escapeAfter (if byte = 0 then 1 else 0) rest
    else byte :: escapeAfter (if byte = 0 then zeros + 1 else 0) rest

/-- The escaped form of a payload. -/
def escape (payload : Bytes) : Bytes :=
  escapeAfter 0 payload

/-! ## Removing escapes -/

/-- The bytes without the 3 of each `00 00 03`. -/
def strip : Bytes → Bytes
  | 0 :: 0 :: 3 :: rest => 0 :: 0 :: strip rest
  | byte :: rest => byte :: strip rest
  | [] => []

/-- Whether some `00 00 03` occurs. -/
def hasEscape : Bytes → Bool
  | 0 :: 0 :: 3 :: _ => true
  | _ :: rest => hasEscape rest
  | [] => false

/-- The first illegal place in escaped bytes, with its offset counted from `offset`: three zeros,
or a `00 00 03` before a byte above 3. -/
def fault? : (offset : Nat) → Bytes → Option (Nat × EscapeFault)
  | offset, 0 :: 0 :: 0 :: _ => some (offset, .threeZeros)
  | offset, 0 :: 0 :: 3 :: next :: rest =>
    if 3 < next then some (offset + 2, .escapeBefore next)
    else fault? (offset + 3) (next :: rest)
  | offset, _ :: rest => fault? (offset + 1) rest
  | _, [] => none

/-- The payload that escaped bytes stand for; `offset` is where they begin. -/
def unescape (offset : Nat) (escaped : Bytes) : Except Error Bytes :=
  match fault? offset escaped with
  | some (place, fault) => .error (.escape place fault)
  | none => .ok (strip escaped)

end H264.Rbsp
