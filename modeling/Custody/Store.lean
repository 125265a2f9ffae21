/-
  Custody.Store — the side of the boundary that keeps the allocations.

  A call is a function on the store that gives a result or faults. It faults where it is handed a
  handle that is not live or names another kind of object; the state of the store after a fault is
  nobody's business.
-/
import Custody.Heap
import Custody.Ledger
import Custody.Log
import Custody.Settings

namespace Custody

/-- Where a value lies: in an allocation of its own, or among a vector's items. -/
inductive Place where
  | whole (h : Handle)
  | item (vector : Handle) (index : UInt64)
  deriving DecidableEq

/-- How a call can be misused. -/
inductive Fault where
  /-- No allocation has this handle. -/
  | dead (h : Handle)
  /-- The handle names another kind of object. -/
  | wrongKind (h : Handle)
  /-- The vector has no item there. -/
  | noItem (h : Handle) (index : UInt64)
  deriving DecidableEq

structure Store where
  heap : Heap
  ledger : Ledger
  settings : Settings
  log : Array LogRecord

/-- A store before its first call. -/
def Store.fresh (a : Allocator) (settings : Settings) : Store := ⟨.empty a, .empty, settings, #[]⟩

def Store.initial : Store := .fresh .growing .initial

abbrev Call := StateT Store (Except Fault)

namespace Store

/-- Adds a record to the log. -/
def say (r : LogRecord) : Call Unit := modify fun s => { s with log := s.log.push r }

/-- Takes new settings. -/
def configure (settings : Settings) : Call Unit := do
  say (.configured settings)
  modify fun s => { s with settings }

/-- Begins a boundary call: it is logged while tracing is on. -/
def enter (e : Entry) : Call Unit := do
  if (← get).settings.traceCalls then say (.call e)

/-- Counts an event in the ledger. -/
def count (e : Event) : Call Unit := modify fun s => { s with ledger := s.ledger.record e }

def allocate (o : Object) : Call Handle := do
  let h := (← get).heap.next
  modify fun s => { s with heap := s.heap.allocate o }
  pure h

/-- What the allocation holds. -/
def object (h : Handle) : Call Object := do
  match (← get).heap.find? h with
  | some o => pure o
  | none => throw (.dead h)

def replace (h : Handle) (o : Object) : Call Unit :=
  modify fun s => { s with heap := s.heap.replace h o }

def release (h : Handle) : Call Unit := modify fun s => { s with heap := s.heap.release h }

/-- The text of an allocation of its own. -/
def boxedText (h : Handle) : Call String := do
  match ← object h with
  | .text t => pure t
  | .vector .. => throw (.wrongKind h)

/-- The items of a vector whose items are of the given type. -/
def items (e : Element) (h : Handle) : Call (Array e.Item) := do
  match ← object h with
  | .vector e' items => if same : e' = e then pure (same ▸ items) else throw (.wrongKind h)
  | .text _ => throw (.wrongKind h)

/-- The text at a place. -/
def textAt : Place → Call String
  | .whole h => boxedText h
  | .item v i => do
    match (← items .text v)[i.toNat]? with
    | some t => pure t
    | none => throw (.noItem v i)

/-- Changes the text at a place. -/
def editText (p : Place) (f : String → String) : Call Unit := do
  let t ← textAt p
  match p with
  | .whole h => replace h (.text (f t))
  | .item v i => do
    let ts ← items .text v
    replace v (.vector .text (ts.setIfInBounds i.toNat (f t)))

/-- The items of a primitive vector from a place in its storage on. -/
def storageFrom (p : Primitive) : Place → Call (List p.Value)
  | .item v i => return (← items (.scalar p) v).toList.drop i.toNat
  | .whole h => throw (.wrongKind h)

end Store

end Custody
