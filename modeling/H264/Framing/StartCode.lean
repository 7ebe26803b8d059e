import H264.Nal.Unit

/-!
# Start codes

In a byte stream each unit follows a start code `00 00 01` and runs up to the next one, less the
zero bytes at its end. `cutAtStartCode` finds the first start code, `cutFrom` the first one from a
place on, `segments` are the stretches between start codes, and `splitAnnexB` frames a whole stream.
`eq_of_cutAtStartCode` says that the cut loses nothing.
-/

namespace H264.Framing

/-- The bytes before every unit. -/
def startCode : Bytes := [0, 0, 1]

/-- The bytes without the zeros at their end. -/
def trimZeros (bytes : Bytes) : Bytes :=
  (bytes.reverse.dropWhile (· == 0)).reverse

/-- The bytes before and after the first start code. -/
def cutAtStartCode : Bytes → Option (Bytes × Bytes)
  | 0 :: 0 :: 1 :: rest => some ([], rest)
  | byte :: rest => (cutAtStartCode rest).map fun (before, after) => (byte :: before, after)
  | [] => none

theorem eq_of_cutAtStartCode {bytes before after : Bytes}
    (h : cutAtStartCode bytes = some (before, after)) : bytes = before ++ startCode ++ after := by
  fun_induction cutAtStartCode bytes generalizing before after with
  | case1 rest => simp_all [startCode]
  | case2 byte rest _ ih =>
    obtain ⟨⟨front, back⟩, hcut, heq⟩ := Option.map_eq_some_iff.mp h
    obtain ⟨rfl, rfl⟩ := Prod.mk.inj heq
    rw [ih hcut]
    simp
  | case3 => simp at h

theorem length_of_cutAtStartCode {bytes before after : Bytes}
    (h : cutAtStartCode bytes = some (before, after)) :
    bytes.length = before.length + after.length + 3 := by
  rw [eq_of_cutAtStartCode h]
  simp [startCode]
  omega

/-- The stretches between start codes of bytes that begin just after one, at `offset`. The last
one ends with the bytes. -/
def segments (offset : Nat) (bytes : Bytes) : List NalUnit :=
  match h : cutAtStartCode bytes with
  | none => [{ start := offset, bytes }]
  | some (before, after) =>
    { start := offset, bytes := before } :: segments (offset + before.length + 3) after
termination_by bytes.length
decreasing_by have := length_of_cutAtStartCode h; omega

/-- The bytes before and after the first start code that begins at a place or after it. -/
def cutFrom (place : Nat) (bytes : Bytes) : Option (Bytes × Bytes) :=
  (cutAtStartCode (bytes.drop place)).map fun (before, after) => (bytes.take place ++ before, after)

/-- The segments of bytes in which start codes are looked for from a place on. -/
def segmentsFrom (place : Nat) (bytes : Bytes) : List NalUnit :=
  match cutFrom place bytes with
  | none => [{ start := 0, bytes }]
  | some (before, after) => { start := 0, bytes := before } :: segments (before.length + 3) after

/-- The units among segments: each without its last zeros, and only where something is left. -/
def unitsOf (segments : List NalUnit) : List NalUnit :=
  (segments.map fun segment => { segment with bytes := trimZeros segment.bytes }).filter
    (!·.bytes.isEmpty)

/-- The units of a whole stream. Anything but zeros before the first start code is an error. -/
def splitAnnexB (stream : Bytes) : Except Error (List NalUnit) :=
  let (lead, following) :=
    match cutAtStartCode stream with
    | none => (stream, [])
    | some (lead, after) => (lead, unitsOf (segments (lead.length + 3) after))
  match lead.findIdx? (· != 0) with
  | some offset => .error (.framing offset .dataBeforeStartCode)
  | none => .ok following

/-- The stream of units, each after a zero byte and a start code. -/
def joinAnnexB (units : List Bytes) : Bytes :=
  units.flatMap fun unit => 0 :: startCode ++ unit

end H264.Framing
