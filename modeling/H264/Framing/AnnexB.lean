import H264.Framing.StartCode

/-!
# Incremental framing

A `Framer` takes a stream in arbitrary chunks and hands back each unit as soon as the start code
after it has arrived. It keeps only the unit in progress, or as much of the end as could begin a
start code, and searches on from where the chunk before left off.

An `Interest` is shown every unit, also while it is still open, and may have it ignored: the rest of
such a unit is passed over without being stored, and it is never returned.
-/

namespace H264.Framing

/-! ## Interest -/

/-- What is to be done with a unit. -/
inductive Verdict
  | keep
  | ignore
deriving DecidableEq, Repr

/-- A judge of units, which may remember in `σ` what it has seen. It is told whether the unit is
complete or still open. -/
structure Interest (σ : Type) where
  judge : (unit : NalUnit) → (complete : Bool) → StateM σ Verdict

/-- The interest that keeps everything. -/
def Interest.all : Interest Unit where
  judge _ _ := return .keep

/-! ## The framer -/

/-- Where in the stream a framer is. -/
inductive Phase
  | seeking
  | inUnit
  | ignoring
deriving DecidableEq, Repr, Inhabited

/-- The state between chunks: the unit in progress or the last bytes received, the place in these
before which no start code can begin any more, and how many bytes and units have been passed over.
-/
structure Framer where
  phase : Phase := .seeking
  pending : Bytes := []
  scanned : Nat := 0
  discarded : Nat := 0
  ignored : Nat := 0
deriving DecidableEq, Repr, Inhabited

namespace Framer

/-- As much of the end of some bytes as a start code could begin in. -/
def tail (bytes : Bytes) : Bytes :=
  bytes.drop (bytes.length - (startCode.length - 1))

/-- The framer after bytes that no start code precedes; zeros at their end do not count. -/
def discard (framer : Framer) (bytes : Bytes) : Framer :=
  { framer with discarded := framer.discarded + (trimZeros bytes).length }

/-- The framer that keeps of some bytes what a start code could begin in. -/
def keepTail (framer : Framer) (bytes : Bytes) : Framer :=
  { framer with pending := tail bytes, scanned := 0 }

/-- The framer in the last of some segments, with the units that the others hold. -/
def enter (framer : Framer) (segments : List NalUnit) : List NalUnit × Framer :=
  let pending := (segments.getLast?.map NalUnit.bytes).getD []
  (unitsOf segments.dropLast,
    { framer with
      phase := .inUnit
      pending
      scanned := pending.length - (startCode.length - 1) })

/-- The place in what is held and a chunk after it from which on start codes are looked for. -/
def resume (framer : Framer) : Nat :=
  if framer.pending.isEmpty then 0 else framer.scanned

/-- The framer after a chunk that is not empty, with the units that the chunk completes. -/
def receive (framer : Framer) (chunk : Bytes) : List NalUnit × Framer :=
  let buffer := framer.pending ++ chunk
  match framer.phase with
  | .inUnit => framer.enter (segmentsFrom framer.resume buffer)
  | .ignoring =>
    match cutFrom framer.resume buffer with
    | none => ([], framer.keepTail buffer)
    | some (before, after) => framer.enter (segments (before.length + 3) after)
  | .seeking =>
    match cutFrom framer.resume buffer with
    | none =>
      let passed := buffer.take (buffer.length - (startCode.length - 1))
      ([], (framer.discard passed).keepTail buffer)
    | some (before, after) =>
      (framer.discard before).enter (segments (before.length + 3) after)

/-- Whether a unit is wanted; a unit that is not is counted. -/
def wants {σ : Type} (interest : Interest σ) (unit : NalUnit) (complete : Bool) :
    StateM (Framer × σ) Bool := do
  let (framer, memory) ← get
  match interest.judge unit complete memory with
  | (.keep, memory) => set (framer, memory); return true
  | (.ignore, memory) =>
    set ({ framer with ignored := framer.ignored + 1 }, memory)
    return false

/-- Those of some complete units that are wanted. -/
def select {σ : Type} (interest : Interest σ) : List NalUnit → StateM (Framer × σ) (List NalUnit)
  | [] => return []
  | unit :: units => do
    let wanted ← wants interest unit true
    let others ← select interest units
    return if wanted then unit :: others else others

/-- The unit in progress, as far as it has been received. -/
def openUnit? (framer : Framer) : Option NalUnit :=
  let bytes := trimZeros framer.pending
  if framer.phase = .inUnit ∧ bytes ≠ [] then some { bytes } else none

/-- Show the unit in progress to the interest, and pass over its rest if it is not wanted. -/
def reviewOpen {σ : Type} (interest : Interest σ) : StateM (Framer × σ) Unit := do
  match (← get).1.openUnit? with
  | none => return
  | some unit =>
    unless ← wants interest unit false do
      modify fun (framer, memory) =>
        ({ framer.keepTail framer.pending with phase := .ignoring }, memory)

/-- Take the next piece of the stream; gives the units that it completes. -/
def push {σ : Type} (interest : Interest σ) (chunk : Bytes) :
    StateM (Framer × σ) (List NalUnit) := do
  if chunk.isEmpty then return []
  let (framer, memory) ← get
  let (completed, framer) := framer.receive chunk
  set (framer, memory)
  let wanted ← select interest completed
  reviewOpen interest
  return wanted

/-- The framer before a new stream; what it has counted stays. -/
def reset (framer : Framer) : Framer :=
  { framer with phase := .seeking, pending := [], scanned := 0 }

/-- Take the end of the stream; gives the last unit, and the framer is ready for a new stream. -/
def flush {σ : Type} (interest : Interest σ) : StateM (Framer × σ) (List NalUnit) := do
  let framer := (← get).1
  let last ← select interest framer.openUnit?.toList
  modify fun (framer, memory) =>
    let framer := if framer.phase = .seeking then framer.discard framer.pending else framer
    (framer.reset, memory)
  return last

/-- Frame a whole stream given in chunks. -/
def pushAll {σ : Type} (interest : Interest σ) (chunks : List Bytes) :
    StateM (Framer × σ) (List NalUnit) := do
  let units ← chunks.mapM (push interest)
  return units.flatten ++ (← flush interest)

/-! ## Framing without an interest -/

/-- The framer after a chunk, keeping every unit. -/
def feed (framer : Framer) (chunk : Bytes) : List NalUnit × Framer :=
  let (units, framer, _) := (push Interest.all chunk).run (framer, ())
  (units, framer)

/-- The framer after the end of the stream, keeping every unit. -/
def finish (framer : Framer) : List NalUnit × Framer :=
  let (units, framer, _) := (flush Interest.all).run (framer, ())
  (units, framer)

end Framer

end H264.Framing
