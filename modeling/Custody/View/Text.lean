/-
  Custody.View.Text — views of text: runs of bytes that are UTF-8, or are said to be.

  A place is what can be read from it on: the bytes that lie there.
-/
import Custody.Text.Utf8
import Custody.View

namespace Custody

abbrev TextView := View (List UInt8)

namespace TextView

/-- The view of all of a text. -/
def ofText (text : String) : TextView :=
  ⟨some (Text.bytesOf text), UInt64.ofNat text.utf8ByteSize⟩

/-- A view of nothing, which starts nowhere. -/
def empty : TextView := ⟨none, 0⟩

def bytes? (v : TextView) : Option (List UInt8) := v.elements? id

/-- The text in view, for a view of unknown origin. -/
def text (v : TextView) : Except BoundaryError String :=
  match v.bytes? with
  | none => .error (.nullStart v.len)
  | some bytes =>
    if Text.validUpTo bytes = bytes.length then .ok (Text.decoded bytes)
    else .error (.notUtf8 (UInt64.ofNat (Text.validUpTo bytes)))

/-- The text in view, for a view that is known to be of UTF-8. -/
def trusted (v : TextView) : String := Text.decoded (v.bytes?.getD [])

end TextView

end Custody
