/-
  Custody.View — a run of elements in somebody else's memory: where it starts, and how long it is.

  A start is a place `P`, or null. What can be read from a place on is known to the owner of the
  memory, so reading takes it as a function. A view of nothing is read without its start.
-/
import Custody.Error

namespace Custody

structure View (P : Type) where
  start : Option P
  len : UInt64
  deriving DecidableEq

namespace View

variable {P : Type}

/-- A view from untrusted parts: only an empty one may start nowhere. -/
def ofParts (start : Option P) (len : UInt64) : Except BoundaryError (View P) :=
  if start.isNone && len != 0 then .error (.nullStart len) else .ok ⟨start, len⟩

def isEmpty (v : View P) : Bool := v.len == 0

/-- The elements in view, where `cells` are those that lie at a place and after it. -/
def elements? {α : Type} (cells : P → List α) (v : View P) : Option (List α) :=
  if v.isEmpty then some []
  else v.start.map fun p => (cells p).take v.len.toNat

/-- The view's parts, under the name of its kind, with null written as the address zero. -/
def debug (kind : String) (address : P → String) (v : View P) : String :=
  kind ++ " \x7b start: " ++ (v.start.map address).getD "0x0" ++ ", len: " ++ toString v.len ++ " \x7d"

end View

end Custody
