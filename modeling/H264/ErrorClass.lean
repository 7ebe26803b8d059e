import H264.Error

/-!
# Classes of errors

The classes into which errors fall, and the errors that a caller reports by a class and some
arguments: the name of a syntax element, the value that is wrong, an offset, or a text. An argument
that is left out counts as absent.
-/

namespace H264

/-- The classes of errors. -/
inductive ErrorClass
  | truncated
  | overflow
  | illegal
  | unresolved
  | unsupported
  | field
  | framing
  | escape
  | general
  | notFound
  | misuse
  | wrongKey
deriving DecidableEq, Repr, Inhabited

namespace ErrorClass

/-- All classes. -/
def all : List ErrorClass :=
  [truncated, overflow, illegal, unresolved, unsupported, field, framing, escape, general, notFound,
   misuse, wrongKey]

end ErrorClass

namespace Error

/-- The class of an error. -/
def errorClass : Error → ErrorClass
  | field _ .truncated => .truncated
  | field _ (.overflow _) => .overflow
  | field _ (.illegal ..) => .illegal
  | field _ (.unresolved _) => .unresolved
  | field _ (.unsupported _) => .unsupported
  | field _ (.stated _) => .field
  | framing .. => .framing
  | escape .. => .escape
  | general _ => .general
  | notFound .. => .notFound
  | misuse _ => .misuse
  | wrongKey .. => .wrongKey

/-- The rule that a report states; a detail that says nothing is left out. -/
def reportedRule (detail : Value) : Rule :=
  if detail.isBlank then .unstated else .stated detail.plain

/-- The overflow that a report states. -/
def reportedOverflow : List Value → Overflow
  | [] => .unspecified
  | detail :: _ => .stated detail.plain

/-- The error that a caller reports; the classes of a caller's own mistakes are not among them. -/
def ofReport (errorClass : ErrorClass) (arguments : List Value) : Error :=
  let argument (index : Nat) : Value := arguments[index]?.getD .absent
  let name := (argument 0).plain
  let text := (argument 1).plain
  match errorClass with
  | .truncated => field name .truncated
  | .overflow => field name (.overflow (reportedOverflow (arguments.drop 1)))
  | .illegal => field name (.illegal (.ofValue (argument 1)) (reportedRule (argument 2)))
  | .unresolved => field name (.unresolved (.ofValue (argument 1)))
  | .unsupported => field name (.unsupported text)
  | .field => field name (.stated text)
  | .framing => framing (argument 0).toInt (.stated text)
  | .escape => escape (argument 0).toInt (.stated text)
  | .notFound => notFound (.named name) (.ofValue (argument 1))
  | .general | .misuse | .wrongKey => general ((arguments.head?.map Value.plain).getD "")

end Error

end H264
