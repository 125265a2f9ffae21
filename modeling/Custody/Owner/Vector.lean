/-
  Custody.Owner.Vector — vectors as a consumer holds them: one kind of owner for every element type.

  A text goes in as its owner and comes out as a new one, and is lent out where it lies; primitive
  values go in and come out as they are.
-/
import Custody.Cursor
import Custody.Owner.Text
import Custody.Store.VectorCalls

namespace Custody

/-- What a consumer moves into a vector and gets back from it. -/
abbrev Element.Moved : Element → Type
  | .text => Owner
  | .scalar p => p.Value

/-- What a vector lends out. -/
abbrev Element.Lent : Element → Type
  | .text => Place
  | .scalar p => p.Value

/-- Makes an item to be moved into a vector. -/
def Element.make : (e : Element) → e.Item → Call e.Moved
  | .text, t => TextOwner.ofText t
  | .scalar _, x => pure x

/-- The item behind what a vector lends out. -/
def Element.look : (e : Element) → e.Lent → Call e.Item
  | .text, p => p.text
  | .scalar _, x => pure x

/-- An item's text in a listing. -/
def Element.debug : (e : Element) → e.Item → String
  | .text, t => Text.quote t
  | .scalar p, x => p.text x

structure VectorOwner (e : Element) where
  handle : Handle
  ownsMemory : Bool
  deriving DecidableEq

namespace VectorOwner

variable {e : Element}

def adopt (e : Element) (h : Handle) : VectorOwner e := ⟨h, true⟩

def new (e : Element) : Call (VectorOwner e) := do
  let h ← VectorCalls.new e
  Store.say (.vectorTaken h)
  pure (adopt e h)

/-- The owner's end: it gives back what it owns. -/
def drop (v : VectorOwner e) : Call Unit := do
  if v.ownsMemory then
    Store.say (.vectorGiven v.handle)
    VectorCalls.drop e v.handle

/-- Hands the handle to whoever will own it next. The owner ends here, no longer owning it. -/
def release (v : VectorOwner e) : Call Handle := do
  let v : VectorOwner e := { v with ownsMemory := false }
  v.drop
  pure v.handle

/-- Moves an item in. A text's owner lets go of it on the way. -/
def push : {e : Element} → VectorOwner e → e.Moved → Call Unit
  | .text, v, o => do
    let h ← TextOwner.release o
    VectorCalls.pushText v.handle h
  | .scalar p, v, x => VectorCalls.pushScalar p v.handle x

def pop : {e : Element} → VectorOwner e → Call (Option e.Moved)
  | .text, v => do return (← VectorCalls.popText v.handle).map Owner.adopt
  | .scalar p, v => do return (← VectorCalls.popScalar p v.handle).toOption

def get : {e : Element} → VectorOwner e → UInt64 → Call (Option e.Lent)
  | .text, v, i => VectorCalls.getText v.handle i
  | .scalar p, v, i => do return (← VectorCalls.getScalar p v.handle i).toOption

def getMut : {e : Element} → VectorOwner e → UInt64 → Call (Option e.Lent)
  | .text, v, i => VectorCalls.getMutText v.handle i
  | .scalar p, v, i => do return (← VectorCalls.getMutScalar p v.handle i).toOption

def len (v : VectorOwner e) : Call UInt64 := VectorCalls.len e v.handle

def isEmpty (v : VectorOwner e) : Call Bool := return (← v.len) == 0

def start (v : VectorOwner e) : Call Place := VectorCalls.start e v.handle

/-- An index that a vector of `len` items does not have. -/
structure OutOfRange where
  index : UInt64
  len : UInt64
  deriving DecidableEq, Repr

def OutOfRange.message (r : OutOfRange) : String :=
  "index " ++ toString r.index ++ " out of range for RustVec of length " ++ toString r.len

/-- Like `get`, for callers who know that the item is there. -/
def itemAt (v : VectorOwner e) (i : UInt64) : Call (Except OutOfRange e.Lent) := do
  match ← v.get i with
  | some x => pure (.ok x)
  | none => return .error ⟨i, ← v.len⟩

/-- Makes each item in turn and moves it in before the next one is made. -/
def extend (v : VectorOwner e) : List (Call e.Moved) → Call Unit
  | [] => pure ()
  | source :: rest => do
    v.push (← source)
    v.extend rest

/-- A new vector of the given items. It is there before the first of them is made. -/
def collect (e : Element) (sources : List (Call e.Moved)) : Call (VectorOwner e) := do
  let v ← new e
  v.extend sources
  pure v

/-- The storage of a primitive vector as a view. -/
def storageView {p : Primitive} (v : VectorOwner (.scalar p)) : Call (View Place) := do
  let start ← v.start
  let len ← v.len
  pure ⟨some start, len⟩

/-- What a view of a primitive vector's storage shows. Nothing is read for an empty view. -/
def readView (p : Primitive) (view : View Place) : Call (List p.Value) :=
  if view.isEmpty then pure []
  else
    match view.start with
    | none => pure []
    | some place => do return (← Store.storageFrom p place).take view.len.toNat

/-- The items, read straight from the storage. -/
def storage {p : Primitive} (v : VectorOwner (.scalar p)) : Call (List p.Value) := do
  readView p (← v.storageView)

/-! ## Walks -/

/-- A cursor at the vector's start. -/
def cursor (v : VectorOwner e) : Call Cursor := return .ofLen (← v.len)

/-- All items from the front, each fetched by its index. -/
def toList (v : VectorOwner e) : Call (List e.Item) := do (← v.cursor).toList v.get e.look

/-- A listing of items in brackets. -/
def listing (e : Element) (items : List e.Item) : String :=
  "[" ++ ", ".intercalate (items.map e.debug) ++ "]"

/-- The items as a listing. -/
def debug (v : VectorOwner e) : Call String := return listing e (← v.toList)

end VectorOwner

end Custody
