/-
  Custody.Tagged — an optional that crosses the boundary by value: a tag beside a value that is
  there even when the tag says no.
-/
namespace Custody

structure Tagged (α : Type) where
  isSome : Bool
  val : α
  deriving DecidableEq

namespace Tagged

def some (val : α) : Tagged α := ⟨true, val⟩

/-- Nothing, with `filler` where the value would be. -/
def none (filler : α) : Tagged α := ⟨false, filler⟩

def ofOption (filler : α) : Option α → Tagged α
  | .some val => some val
  | .none => none filler

/-- The tag decides; what stands beside a false one is never looked at. -/
def toOption (t : Tagged α) : Option α := if t.isSome then .some t.val else .none

theorem toOption_ofOption (filler : α) (o : Option α) : (ofOption filler o).toOption = o := by
  cases o <;> rfl

def debug (text : α → String) (t : Tagged α) : String :=
  "FfiOption \x7b is_some: " ++ (if t.isSome then "true" else "false") ++ ", val: " ++ text t.val ++
    " \x7d"

end Tagged

end Custody
