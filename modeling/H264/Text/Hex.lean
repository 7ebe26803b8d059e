/-!
# Hexadecimal digits

Numbers in a fixed number of lowercase hexadecimal digits.
-/

namespace H264.Text

/-- The `width` low hexadecimal digits of `value`, most significant first. -/
def hexDigits : (width value : Nat) → List Char
  | 0, _ => []
  | width + 1, value => Nat.digitChar (value >>> (4 * width) % 16) :: hexDigits width value

/-- A number in `width` hexadecimal digits. -/
def hex (width value : Nat) : String :=
  String.ofList (hexDigits width value)

end H264.Text
