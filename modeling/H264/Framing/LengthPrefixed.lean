import H264.Nal.Unit

/-!
# Length-prefixed samples

A sample is a sequence of entries, each a big-endian length and as many bytes, which are taken one
at a time. Entries of length zero are passed over. Where a sample breaks off, the units before the
break are still framed, and the error tells where the broken entry begins.
-/

namespace H264.Framing

/-- The number of bytes of a length field, one to four. -/
structure LengthSize where
  bytes : Nat
  pos : 1 ≤ bytes
  le_four : bytes ≤ 4

namespace LengthSize

/-- The size as a number of bytes, if it is one to four. -/
def ofInt (size : Int) : Except Misuse LengthSize :=
  if h : 1 ≤ size ∧ size ≤ 4 then .ok ⟨size.toNat, by omega, by omega⟩
  else .error (.lengthFieldSize size)

/-- A length field of four bytes. -/
def four : LengthSize := ⟨4, by decide, by decide⟩

end LengthSize

/-- The unit of the entry that a sample begins with, and the sample behind it; at the end of a
sample there is none. -/
def takeEntry (size : LengthSize) (offset : Nat) (sample : Bytes) :
    Except Error (Option (Bytes × Bytes)) :=
  if sample.isEmpty then .ok none
  else if sample.length < size.bytes then
    .error (.framing offset (.cutLengthField sample.length size.bytes))
  else
    let length := Bytes.toNat (sample.take size.bytes)
    let body := sample.drop size.bytes
    if body.length < length then .error (.framing offset (.unitExceedsSample length body.length))
    else .ok (some (body.take length, body.drop length))

theorem length_lt_of_takeEntry {size : LengthSize} {offset : Nat} {sample unit rest : Bytes}
    (h : takeEntry size offset sample = .ok (some (unit, rest))) : rest.length < sample.length := by
  have hpos := size.pos
  unfold takeEntry at h
  split at h
  · cases h
  · split at h
    · cases h
    · dsimp only at h
      split at h
      · cases h
      · cases h
        simp only [List.length_drop]
        omega

/-- The units of a sample from `offset` on, and the error at which it breaks off. -/
def sampleUnits (size : LengthSize) (offset : Nat) (sample : Bytes) :
    List NalUnit × Option Error :=
  match _h : takeEntry size offset sample with
  | .ok none => ([], none)
  | .error error => ([], some error)
  | .ok (some (unit, rest)) =>
    let (units, error) := sampleUnits size (offset + size.bytes + unit.length) rest
    if unit.isEmpty then (units, error)
    else ({ start := offset + size.bytes, bytes := unit } :: units, error)
termination_by sample.length
decreasing_by exact length_lt_of_takeEntry _h

/-- The units of a sample that is whole. -/
def splitSample (size : LengthSize) (sample : Bytes) : Except Error (List NalUnit) :=
  match sampleUnits size 0 sample with
  | (units, none) => .ok units
  | (_, some error) => .error error

/-- The sample of units, each after its length. -/
def joinSample (size : LengthSize) : List Bytes → Except Misuse Bytes
  | [] => .ok []
  | unit :: units =>
    if 1 <<< (8 * size.bytes) ≤ unit.length then .error (.unitTooLong unit.length size.bytes)
    else do
      let rest ← joinSample size units
      return Bytes.ofNat size.bytes unit.length ++ unit ++ rest

end H264.Framing
