/-
  Custody.Owner.TextSet — sets of owned texts, which keep one owner of each text.

  A member is looked up by its hash first and then by equality; an owner whose text is there already
  is dropped on arrival.
-/
import Custody.Owner.Text

namespace Custody

/-- The members with their hashes, the youngest first. -/
abbrev TextSet := List (UInt64 × Owner)

namespace TextSet

/-- Whether a member with this hash has the same text as `o`. -/
def holds : TextSet → UInt64 → Owner → Call Bool
  | [], _, _ => pure false
  | (h', o') :: rest, h, o => do
    if h' = h then
      if ← (Place.whole o'.handle).equals (.whole o.handle) then return true
    holds rest h o

def insert (s : TextSet) (o : Owner) : Call TextSet := do
  let h ← (Place.whole o.handle).hash
  if ← s.holds h o then
    TextOwner.drop o
    pure s
  else pure ((h, o) :: s)

/-- The set's end, and that of its members. -/
def drop : TextSet → Call Unit
  | [] => pure ()
  | (_, o) :: rest => do
    TextOwner.drop o
    drop rest

end TextSet

end Custody
