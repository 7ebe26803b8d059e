import H264.Text.Quoted

/-!
# Values in reports

What a caller hands over to be shown: nothing, a truth value, a number, a text, a list or a table.
`Value.shown` writes a value with texts in quotation marks; `Value.plain` leaves a text that stands
alone as it is.
-/

namespace H264

/-- A value that a caller hands over. -/
inductive Value
  | absent
  | truth (holds : Bool)
  | number (value : Int)
  | text (content : String)
  | list (items : List Value)
  | table (entries : List (String × Value))
deriving Repr, Inhabited

namespace Value

mutual

/-- How a value is shown. -/
def shown : Value → String
  | absent => "None"
  | truth true => "True"
  | truth false => "False"
  | number value => toString value
  | text content => Text.quoted content
  | list items => "[" ++ ", ".intercalate (shownItems items) ++ "]"
  | table entries => "\x7b" ++ ", ".intercalate (shownEntries entries) ++ "\x7d"

/-- How the items of a list are shown. -/
def shownItems : List Value → List String
  | [] => []
  | item :: items => shown item :: shownItems items

/-- How the entries of a table are shown. -/
def shownEntries : List (String × Value) → List String
  | [] => []
  | (key, value) :: entries => (Text.quoted key ++ ": " ++ shown value) :: shownEntries entries

end

/-- How a value is shown where a text needs no quotation marks. -/
def plain : Value → String
  | text content => content
  | value => value.shown

/-- Whether a value says nothing: absent, false, zero or empty. -/
def isBlank : Value → Bool
  | absent => true
  | truth holds => !holds
  | number value => value == 0
  | text content => content.isEmpty
  | list items => items.isEmpty
  | table entries => entries.isEmpty

/-- The number of a value; a truth value counts as one or zero. -/
def toInt : Value → Int
  | number value => value
  | truth true => 1
  | _ => 0

end Value

end H264
