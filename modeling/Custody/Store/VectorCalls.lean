/-
  Custody.Store.VectorCalls — the exported functions of vectors.

  Texts move into a vector and out of it by handle, and are lent out where they lie; primitive
  values are copied, with a tag for absence.
-/
import Custody.Store.TextCalls
import Custody.Tagged

namespace Custody

namespace VectorCalls

/-! ## Every vector -/

def new (e : Element) : Call Handle := do
  Store.enter (.vector e .new)
  let capacity := (← get).settings.capacityHint
  Store.count .vectorAlloc
  let v ← Store.allocate (.vector e #[])
  Store.say (.allocated e v capacity)
  pure v

/-- How many texts end with a vector of `n` items: all of them, or none where items are values. -/
def textsIn : Element → Nat → UInt64
  | .text, n => UInt64.ofNat n
  | .scalar _, _ => 0

/-- Ends a vector and every text still in it. -/
def drop (e : Element) (v : Handle) : Call Unit := do
  Store.enter (.vector e .drop)
  let xs ← Store.items e v
  Store.say (.dropped e v (UInt64.ofNat xs.size))
  Store.release v
  Store.count (.vectorFree (textsIn e xs.size))

def len (e : Element) (v : Handle) : Call UInt64 := do
  Store.enter (.vector e .len)
  return UInt64.ofNat (← Store.items e v).size

/-- Where the vector's storage starts. -/
def start (e : Element) (v : Handle) : Call Place := do
  Store.enter (.vector e .start)
  discard (Store.items e v)
  pure (.item v 0)

/-! ## Vectors of texts -/

/-- Moves a text from its own allocation into the vector. -/
def pushText (v item : Handle) : Call Unit := do
  Store.enter (.vector .text .push)
  let t ← TextCalls.takeBack item
  Store.count .textTransfer
  let ts ← Store.items .text v
  Store.replace v (.vector .text (ts.push t))

/-- Moves the last text into a new allocation of its own. -/
def popText (v : Handle) : Call (Option Handle) := do
  Store.enter (.vector .text .pop)
  let ts ← Store.items .text v
  match ts.back? with
  | none => pure none
  | some t =>
    Store.replace v (.vector .text ts.pop)
    some <$> TextCalls.handOut t

/-- Where item `i` lies, if there is one. -/
def lend (v : Handle) (i : UInt64) : Call (Option Place) := do
  let ts ← Store.items .text v
  pure (if i.toNat < ts.size then some (.item v i) else none)

def getText (v : Handle) (i : UInt64) : Call (Option Place) := do
  Store.enter (.vector .text .get)
  lend v i

def getMutText (v : Handle) (i : UInt64) : Call (Option Place) := do
  Store.enter (.vector .text .getMut)
  lend v i

/-! ## Vectors of primitive values -/

def pushScalar (p : Primitive) (v : Handle) (x : p.Value) : Call Unit := do
  Store.enter (.vector (.scalar p) .push)
  let xs ← Store.items (.scalar p) v
  Store.replace v (.vector (.scalar p) (xs.push x))

def popScalar (p : Primitive) (v : Handle) : Call (Tagged p.Value) := do
  Store.enter (.vector (.scalar p) .pop)
  let xs ← Store.items (.scalar p) v
  Store.replace v (.vector (.scalar p) xs.pop)
  pure (.ofOption p.zero xs.back?)

/-- A copy of item `i`, if there is one. -/
def copy (p : Primitive) (v : Handle) (i : UInt64) : Call (Tagged p.Value) := do
  let xs ← Store.items (.scalar p) v
  pure (.ofOption p.zero xs[i.toNat]?)

def getScalar (p : Primitive) (v : Handle) (i : UInt64) : Call (Tagged p.Value) := do
  Store.enter (.vector (.scalar p) .get)
  copy p v i

def getMutScalar (p : Primitive) (v : Handle) (i : UInt64) : Call (Tagged p.Value) := do
  Store.enter (.vector (.scalar p) .getMut)
  copy p v i

end VectorCalls

end Custody
