import H264.Error

/-!
# Issues

What went wrong with the units of a stream, in stream order, to be found again and to be counted by
kind and severity. An issue may carry values `κ` that whoever logs it adds.
-/

namespace H264

/-- The kind of an issue, read off its error. -/
inductive IssueKind
  | truncated
  | valueOverflow
  | rangeViolation
  | unresolvedReference
  | unsupported
  | emulationPrevention
  | malformedFraming
  | other
deriving DecidableEq, Repr, Inhabited

/-- How much of a stream an issue puts in doubt. -/
inductive Severity
  | low
  | medium
  | high
  | critical
deriving DecidableEq, Repr, Inhabited

namespace IssueKind

/-- The kind of an error. -/
def ofError : Error → IssueKind
  | .field _ .truncated => truncated
  | .field _ (.overflow _) => valueOverflow
  | .field _ (.illegal ..) => rangeViolation
  | .field _ (.unresolved _) => unresolvedReference
  | .field _ (.unsupported _) => unsupported
  | .escape .. => emulationPrevention
  | .framing .. => malformedFraming
  | .field _ (.stated _) | .general _ | .notFound .. | .misuse _ | .wrongKey .. => other

/-- All kinds. -/
def all : List IssueKind :=
  [truncated, valueOverflow, rangeViolation, unresolvedReference, unsupported,
   emulationPrevention, malformedFraming, other]

/-- The label of a kind in summaries. -/
def label : IssueKind → String
  | truncated => "truncated"
  | valueOverflow => "value_overflow"
  | rangeViolation => "range_violation"
  | unresolvedReference => "unresolved_reference"
  | unsupported => "unsupported_syntax"
  | emulationPrevention => "emulation_prevention"
  | malformedFraming => "malformed_framing"
  | other => "other"

/-- The kind with a label. -/
def ofLabel? (text : String) : Option IssueKind :=
  all.find? (·.label == text)

/-- The kind whose label a caller gives. -/
def ofValue (value : Value) : Except Misuse IssueKind :=
  let kind? := match value with
    | .text content => ofLabel? content
    | _ => none
  match kind? with
  | some kind => .ok kind
  | none => .error (.noMember (.ofValue value) "IssueKind")

/-- The severity of issues of a kind. -/
def severity : IssueKind → Severity
  | unsupported => .low
  | truncated | unresolvedReference | other => .medium
  | valueOverflow | rangeViolation | emulationPrevention => .high
  | malformedFraming => .critical

end IssueKind

namespace Severity

/-- All severities, least first. -/
def all : List Severity := [low, medium, high, critical]

/-- The label of a severity in summaries. -/
def label : Severity → String
  | low => "low"
  | medium => "medium"
  | high => "high"
  | critical => "critical"

end Severity

/-- One thing that went wrong. -/
structure Issue (κ : Type) where
  kind : IssueKind
  unitIndex : Int
  unitType : Option Int
  message : String
  field : Option String
  context : κ
deriving Repr

namespace Issue

variable {κ : Type}

/-- The issue of an error at a unit. -/
def ofError (error : Error) (unitIndex : Int) (unitType : Option Int) (context : κ) :
    Issue κ where
  kind := .ofError error
  unitIndex := unitIndex
  unitType := unitType
  message := error.message
  field := error.fieldName?
  context := context

/-- The severity of an issue. -/
def severity (issue : Issue κ) : Severity := issue.kind.severity

end Issue

/-- Issues in stream order. -/
abbrev IssueLog (κ : Type) := List (Issue κ)

/-- What a log says of a stream: how many issues it has, of which kinds and severities, and all of
them. -/
structure IssueSummary (κ : Type) where
  total : Nat
  kinds : List (IssueKind × Nat)
  severities : List (Severity × Nat)
  issues : List (Issue κ)
deriving Repr

/-- Counts by key with one more of a key; keys are in the order in which they came. -/
def countOne {α : Type} [DecidableEq α] (counts : List (α × Nat)) (key : α) : List (α × Nat) :=
  match counts with
  | [] => [(key, 1)]
  | (other, count) :: rest =>
    if other = key then (other, count + 1) :: rest else (other, count) :: countOne rest key

namespace IssueLog

variable {κ : Type}

/-- The log with an issue added. -/
def add (log : IssueLog κ) (issue : Issue κ) : IssueLog κ :=
  log ++ [issue]

/-- The issues of a kind. -/
def ofKind (log : IssueLog κ) (kind : IssueKind) : IssueLog κ :=
  log.filter (·.kind == kind)

/-- The kinds that occur, in the order in which they came, with the number of issues of each. -/
def kindCounts (log : IssueLog κ) : List (IssueKind × Nat) :=
  (log.map Issue.kind).foldl countOne []

/-- All severities, with the number of issues of each. -/
def severityCounts (log : IssueLog κ) : List (Severity × Nat) :=
  (log.map Issue.severity).foldl countOne (Severity.all.map (·, 0))

/-- The summary of a log. -/
def summary (log : IssueLog κ) : IssueSummary κ where
  total := log.length
  kinds := log.kindCounts
  severities := log.severityCounts
  issues := log

end IssueLog

end H264
