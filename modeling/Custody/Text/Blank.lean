/-
  Custody.Text.Blank — white space, and texts without it at either end.
-/
import Custody.Text.Ranges

namespace Custody.Text

/-- The Unicode property White_Space. -/
def whiteSpace : Ranges :=
  [
  (0x9, 0xd), (0x20, 0x20), (0x85, 0x85), (0xa0, 0xa0), (0x1680, 0x1680), (0x2000, 0x200a),
  (0x2028, 0x2029), (0x202f, 0x202f), (0x205f, 0x205f), (0x3000, 0x3000)]

def isBlank (c : Char) : Bool := whiteSpace.contains c

/-- The part between the first and the last character that is not blank. -/
def trimChars (cs : List Char) : List Char :=
  (((cs.dropWhile isBlank).reverse).dropWhile isBlank).reverse

/-- `text` without the blanks at its two ends. -/
def trim (text : String) : String := String.ofList (trimChars text.toList)

theorem toList_trim (text : String) : (trim text).toList = trimChars text.toList := by
  simp [trim]

end Custody.Text
