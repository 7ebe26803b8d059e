import H264.Text.Hex
import H264.Text.Printable

/-!
# Quoted texts

A text between quotation marks, on one line and of printable characters only. The marks are single,
unless the text has a single mark and no double one. The mark itself and the backslash stand after a
backslash; tab, line feed and carriage return have a letter, and other characters that are not
printable their number.
-/

namespace H264.Text

/-- The quotation mark that is used by default. -/
def singleMark : Char := '\x27'

/-- The quotation mark for texts that have the default one. -/
def doubleMark : Char := '\x22'

/-- The mark that escapes the character after it. -/
def escapeMark : Char := '\\'

/-- The quotation mark around a text. -/
def markOf (text : List Char) : Char :=
  if text.contains singleMark && !text.contains doubleMark then doubleMark else singleMark

/-- The number of a character that is not printable, in two, four or eight digits. -/
def numbered (c : Char) : List Char :=
  if c.toNat < 0x100 then 'x' :: hexDigits 2 c.toNat
  else if c.toNat < 0x10000 then 'u' :: hexDigits 4 c.toNat
  else 'U' :: hexDigits 8 c.toNat

/-- How a character is written between two marks. -/
def escapeChar (mark c : Char) : List Char :=
  if c = mark ∨ c = escapeMark then [escapeMark, c]
  else if c = '\t' then [escapeMark, 't']
  else if c = '\n' then [escapeMark, 'n']
  else if c = '\r' then [escapeMark, 'r']
  else if isPrintable c then [c]
  else escapeMark :: numbered c

/-- A text between two marks. -/
def quotedChars (text : List Char) : List Char :=
  let mark := markOf text
  mark :: text.flatMap (escapeChar mark) ++ [mark]

/-- A text between two marks. -/
def quoted (text : String) : String :=
  String.ofList (quotedChars text.toList)

end H264.Text
