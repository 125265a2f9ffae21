/-
  Custody.Text.Utf8 — bytes as UTF-8, read as far as they are well formed.
-/
namespace Custody.Text

/-- The characters from byte `i` on, up to the first place where no character begins, and that
    place. -/
def decodeFrom (bytes : ByteArray) (i : Nat) : List Char × Nat :=
  match bytes.utf8DecodeChar? i with
  | none => ([], i)
  | some c =>
    if i < bytes.size then
      let (cs, stop) := decodeFrom bytes (i + c.utf8Size)
      (c :: cs, stop)
    else ([], i)
termination_by bytes.size - i
decreasing_by have := c.utf8Size_pos; omega

/-- The bytes of a text. -/
def bytesOf (text : String) : List UInt8 := text.toUTF8.data.toList

/-- How many of the bytes are well formed, counted from the first one. -/
def validUpTo (bytes : List UInt8) : Nat := (decodeFrom ⟨bytes.toArray⟩ 0).2

/-- The text of the bytes, as far as they are well formed. -/
def decoded (bytes : List UInt8) : String := String.ofList (decodeFrom ⟨bytes.toArray⟩ 0).1

end Custody.Text
