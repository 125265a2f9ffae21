/-
  Custody.Owner.Watch — owners of a type whose only deed is to write down each handle given back.

  What the store does with a handle plays no part here, so this is all that owners do by themselves:
  the same address may be adopted any number of times, and every owner gives it back once.
-/
import Custody.Owner

namespace Custody

structure Watch where
  owners : Slots Owner
  /-- Handles that owners let go of. -/
  released : Slots Handle
  /-- Handles given back so far, the first one first. -/
  freed : List Handle

namespace Watch

def empty : Watch := ⟨.empty, .empty, []⟩

/-- The watched type: giving a handle back writes it down. -/
def type : OpaqueType (StateM (List Handle)) :=
  ⟨"Watched", fun _ => pure (), fun h => modify (· ++ [h])⟩

inductive Op where
  | adopt (address : Nat)
  | adoptReleased (released : Nat)
  | release (owner : Nat)
  | drop (owner : Nat)
  | owns (owner : Nat)
  | borrow (owner : Nat)
  | borrowMut (owner : Nat)
  deriving DecidableEq, Repr

inductive Answer where
  | done
  /-- The slot does not hold what the operation needs. -/
  | emptySlot
  /-- The new owner's slot; none for the null address. -/
  | adopted (owner : Option Nat)
  | released (slot : Nat) (handle : Handle)
  | truth (b : Bool)
  /-- The handle of a loan, and whether it is the owner's. -/
  | loan (handle : Handle) (same : Bool)
  deriving DecidableEq

/-- A step on the owner of a slot, which keeps it. -/
def peek (w : Watch) (i : Nat) (f : Owner → Answer) : Answer × Watch :=
  match w.owners.get? i with
  | none => (.emptySlot, w)
  | some o => (f o, w)

/-- The handle that a loan of a whole allocation stands for. -/
def lent (owner : Owner) (l : Loan) : Answer :=
  match l.place with
  | .whole h => .loan h (h = owner.handle)
  | .item v _ => .loan v false

def step (w : Watch) : Op → Answer × Watch
  | .adopt address =>
    match Handle.ofAddress? address with
    | none => (.adopted none, w)
    | some h => (.adopted (some w.owners.next), { w with owners := w.owners.add (.adopt h) })
  | .adoptReleased i =>
    match w.released.get? i with
    | none => (.emptySlot, w)
    | some h =>
      (.adopted (some w.owners.next),
        { w with owners := w.owners.add (.adopt h), released := w.released.clear i })
  | .release i =>
    match w.owners.get? i with
    | none => (.emptySlot, w)
    | some o =>
      let (h, freed) := (o.release type).run w.freed
      (.released w.released.next h,
        { owners := w.owners.clear i, released := w.released.add h, freed })
  | .drop i =>
    match w.owners.get? i with
    | none => (.emptySlot, w)
    | some o =>
      let (_, freed) := (o.drop type).run w.freed
      (.done, { w with owners := w.owners.clear i, freed })
  | .owns i => w.peek i fun o => .truth o.ownsMemory
  | .borrow i => w.peek i fun o => lent o o.borrow
  | .borrowMut i => w.peek i fun o => lent o o.borrowMut.asShared

/-- Drops the owners that are left, in the order of their slots. -/
def close (w : Watch) : Watch :=
  w.owners.entries.foldl (fun w e => (w.step (.drop e.1)).2) w

end Watch

end Custody
