import H264.Framing.AnnexB
import H264.Framing.LengthPrefixed
import H264.Issue
import H264.Record

/-!
# Stream analysis

An `Analyzer` takes the units of one stream in order, decodes each against the parameter sets before
it, stores the parameter sets it meets, and keeps count. A unit that cannot be decoded is logged and
does not stop the analysis. Units come as a byte stream in chunks, as length-prefixed samples, or
one by one.
-/

namespace H264

/-- What came of one unit. -/
structure UnitResult where
  index : Nat
  unit : NalUnit
  outcome : Except Error Record

namespace UnitResult

/-- The record of a unit that was decoded. -/
def record? (result : UnitResult) : Option Record :=
  result.outcome.toOption

/-- The error of a unit that was not. -/
def error? (result : UnitResult) : Option Error :=
  match result.outcome with
  | .ok _ => none
  | .error error => some error

end UnitResult

/-- What an analysis says of its stream. -/
structure StreamSummary where
  totalUnits : Nat
  typeCounts : List (UnitType × Nat)
  discarded : Nat
  issues : IssueSummary (Option Nat)

/-- The state of an analysis. The number that an issue may carry is the index of its sample. -/
structure Analyzer where
  sets : ParamSets := {}
  updateSets : Bool := true
  issues : IssueLog (Option Nat) := []
  unitCount : Nat := 0
  typeCounts : List (UnitType × Nat) := []
  framer : Framing.Framer := {}

/-- A step of an analysis. An error that no stream causes ends the step, and the state stays as it
was left. -/
abbrev Analyze := EStateM Error Analyzer

namespace Analyzer

/-- The analyzer with one more unit counted. -/
def count (analyzer : Analyzer) (unit : NalUnit) : Analyzer :=
  { analyzer with
    unitCount := analyzer.unitCount + 1
    typeCounts := match unit.type? with
      | some type => countOne analyzer.typeCounts type
      | none => analyzer.typeCounts }

/-- The analyzer with an issue logged. -/
def log (analyzer : Analyzer) (issue : Issue (Option Nat)) : Analyzer :=
  { analyzer with issues := analyzer.issues.add issue }

/-- The analyzer with a record stored, if it keeps its parameter sets current. -/
def keep (analyzer : Analyzer) (record : Record) : Analyzer :=
  if analyzer.updateSets then { analyzer with sets := analyzer.sets.storeRecord record }
  else analyzer

/-- Decode one unit. -/
def analyzeUnit (unit : NalUnit) : Analyze UnitResult := do
  let before ← get
  let index := before.unitCount
  set (before.count unit)
  match Record.ofUnit before.sets unit with
  | .ok record =>
    modify (·.keep record)
    return { index, unit, outcome := .ok record }
  | .error error =>
    if !error.isBitstream then throw error
    modify (·.log (.ofError error index (unit.type?.map fun type => type.code) none))
    return { index, unit, outcome := .error error }

/-- Decode units that are already framed. -/
def analyzeUnits : List NalUnit → Analyze (List UnitResult)
  | [] => return []
  | unit :: units => do
    let first ← analyzeUnit unit
    return first :: (← analyzeUnits units)

/-- Take the next chunk of a byte stream. -/
def feed (chunk : Bytes) : Analyze (List UnitResult) := do
  let (units, framer) := (← get).framer.feed chunk
  modify ({ · with framer })
  analyzeUnits units

/-- Take the end of a byte stream. -/
def flush : Analyze (List UnitResult) := do
  let (units, framer) := (← get).framer.finish
  modify ({ · with framer })
  analyzeUnits units

/-- Decode the units of a sample from `offset` on, each as soon as it is framed. An error ends this,
be it one of the framing or of a unit; the results before it are kept. -/
def analyzeEntries (size : Framing.LengthSize) (offset : Nat) (sample : Bytes)
    (analyzer : Analyzer) : List UnitResult × Option Error × Analyzer :=
  match _h : Framing.takeEntry size offset sample with
  | .ok none => ([], none, analyzer)
  | .error error => ([], some error, analyzer)
  | .ok (some (unit, rest)) =>
    let next := offset + size.bytes + unit.length
    if unit.isEmpty then analyzeEntries size next rest analyzer
    else match analyzeUnit { start := offset + size.bytes, bytes := unit } analyzer with
      | .error error after => ([], some error, after)
      | .ok result after =>
        let (results, ending) := analyzeEntries size next rest after
        (result :: results, ending)
termination_by sample.length
decreasing_by all_goals exact Framing.length_lt_of_takeEntry _h

/-- Decode one length-prefixed sample. An error of framing ends the sample and is logged, any other
ends the analysis. -/
def analyzeSample (size : Framing.LengthSize) (sampleIndex : Nat) (sample : Bytes) :
    Analyze (List UnitResult) := fun before =>
  match analyzeEntries size 0 sample before with
  | (results, none, after) => .ok results after
  | (results, some error, after) =>
    if error.isFraming then
      .ok results (after.log (.ofError error after.unitCount none (some sampleIndex)))
    else .error error after

/-- Decode length-prefixed samples, from one with a given index on. -/
def analyzeSamples (size : Framing.LengthSize) :
    (sampleIndex : Nat) → List Bytes → Analyze (List UnitResult)
  | _, [] => return []
  | sampleIndex, sample :: samples => do
    let results ← analyzeSample size sampleIndex sample
    return results ++ (← analyzeSamples size (sampleIndex + 1) samples)

/-- The summary of an analysis so far. -/
def summary (analyzer : Analyzer) : StreamSummary where
  totalUnits := analyzer.unitCount
  typeCounts := analyzer.typeCounts
  discarded := analyzer.framer.discarded
  issues := analyzer.issues.summary

end Analyzer

end H264
