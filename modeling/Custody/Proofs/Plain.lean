/-
  Custody.Proofs.Plain — sessions of plain values.

  Here an owner of a text is the text and a vector is the list of its items: there are no handles, no
  allocations and nothing that could fault. Values are moved from slot to slot as in a session, and
  what the ledger has to count is written down as a list of deeds.
-/
import Mathlib.Data.List.Dedup
import Custody.Proofs.Wire
import Custody.Session

namespace Custody

/-! ## Deeds -/

/-- What the ledger counts, and how a text came to be in an allocation of its own. -/
inductive Deed where
  /-- A text was made. -/
  | created
  /-- A text was taken out of a vector. -/
  | popped
  /-- An owned text was given back. -/
  | freed
  /-- An owned text was moved into a vector. -/
  | moved
  | vectorMade
  /-- A vector was given back, with so many texts in it. -/
  | vectorEnded (texts : Nat)
  deriving DecidableEq

def Deed.event : Deed → Event
  | .created | .popped => .textAlloc
  | .freed => .textFree
  | .moved => .textTransfer
  | .vectorMade => .vectorAlloc
  | .vectorEnded texts => .vectorFree (UInt64.ofNat texts)

/-- The ledger that counted these deeds. -/
def Ledger.ofDeeds (ds : List Deed) : Ledger := (ds.map Deed.event).foldl Ledger.record .empty

namespace Element

/-- How many texts there are among `n` items. -/
def texts : Element → Nat → Nat
  | .text, n => n
  | .scalar _, _ => 0

/-- Making an item and moving it into a vector. -/
def pushDeeds : Element → List Deed
  | .text => [.created, .moved]
  | .scalar _ => []

/-- Popping an item past the vector's owner: a text is given back at once. -/
def popDeeds : (e : Element) → List e.Item → List Deed
  | .text, _ :: _ => [.popped, .freed]
  | _, _ => []

end Element

/-! ## Values in slots -/

/-- A list of items together with their type. -/
abbrev AnyItems := (e : Element) × List e.Item

structure Plain where
  texts : Slots String
  owned : Slots String
  vectors : Slots AnyItems
  released : Slots String
  releasedVectors : Slots AnyItems
  settings : Settings
  /-- What was done since the ledger was last reset, the first deed first. -/
  deeds : List Deed
  /-- The ledger as it was last marked. -/
  mark : Ledger

namespace Plain

def start : Plain := ⟨.empty, .empty, .empty, .empty, .empty, .initial, [], .empty⟩

abbrev Act := StateT Plain (Except Refusal)

structure Table (α : Type) where
  of : Plain → Slots α
  set : Plain → Slots α → Plain

namespace Table

def texts : Table String := ⟨Plain.texts, fun p t => { p with texts := t }⟩
def owned : Table String := ⟨Plain.owned, fun p t => { p with owned := t }⟩
def vectors : Table AnyItems := ⟨Plain.vectors, fun p t => { p with vectors := t }⟩
def released : Table String := ⟨Plain.released, fun p t => { p with released := t }⟩
def releasedVectors : Table AnyItems := ⟨Plain.releasedVectors, fun p t => { p with releasedVectors := t }⟩

variable {α : Type} (t : Table α)

def peek (i : Nat) : Act α := do
  match (t.of (← get)).get? i with
  | some a => pure a
  | none => throw .emptySlot

def take (i : Nat) : Act α := do
  let a ← t.peek i
  modify fun p => t.set p ((t.of p).clear i)
  pure a

def bind (a : α) : Act Nat := do
  let i := (t.of (← get)).next
  modify fun p => t.set p ((t.of p).add a)
  pure i

/-- Changes the value of slot `i`. -/
def put (i : Nat) (a : α) : Act Unit := modify fun p => t.set p ((t.of p).put i a)

end Table

/-- Writes deeds down. -/
def did (ds : List Deed) : Act Unit := modify fun p => { p with deeds := p.deeds ++ ds }

/-- The items of the vector of slot `v`, which must be of type `e`. -/
def itemsOf (e : Element) (v : Nat) : Act (List e.Item) := do
  let ⟨e', xs⟩ ← Table.vectors.peek v
  if same : e' = e then pure (same ▸ xs) else throw .wrongElement

/-! ## Walks -/

section
variable (wire : Wire) {e : Element}

def fetch (xs : List e.Item) (i : UInt64) : Id (Option e.Item) := xs[i.toNat]?

/-- A step of cursor `i`. -/
def stepAt (cs : Cursors) (i : Nat) (f : Cursor → CursorAnswer × Cursors) : CursorAnswer × Cursors :=
  match cs.get? i with
  | none => (.refused .emptySlot, cs)
  | some c => f c

/-- A step that moves cursor `i` and shows the item that it finds. -/
def moveAt (cs : Cursors) (i : Nat) (step : Cursor → Option e.Item × Cursor) : CursorAnswer × Cursors :=
  stepAt cs i fun c => (.item e ((step c).1.map (wire.item e)), cs.put i (step c).2)

/-- A step that leaves the items as they are. -/
def walkOver (xs : List e.Item) (cs : Cursors) (i : Nat) : CursorAction → CursorAnswer × Cursors
  | .fresh => (.cursor cs.next, cs.add (.ofLen (UInt64.ofNat xs.length)))
  | .clone => stepAt cs i fun c => (.cursor cs.next, cs.add c)
  | .next => moveAt wire cs i fun c => c.next (fetch xs)
  | .nextBack => moveAt wire cs i fun c => c.nextBack (fetch xs)
  | .nth n => moveAt wire cs i fun c => c.nth (fetch xs) n
  | .nthBack n => moveAt wire cs i fun c => c.nthBack (fetch xs) n
  | .get k => stepAt cs i fun _ => (.item e (xs[k.toNat]?.map (wire.item e)), cs)
  | .len => stepAt cs i fun c => (.number c.remaining, cs)
  | .sizeHint => stepAt cs i fun c => (.sizeHint c.remaining c.remaining, cs)
  | .count => stepAt cs i fun c => (.number c.remaining, cs.clear i)
  | .last => stepAt cs i fun c => (.item e ((c.last (fetch xs)).map (wire.item e)), cs.clear i)
  | .toList => stepAt cs i fun c => (.items e (c.toList (fetch xs) (wire.item e)), cs.clear i)
  | .toListRev => stepAt cs i fun c => (.items e (c.toListRev (fetch xs) (wire.item e)), cs.clear i)
  | .toListSkipping gap => stepAt cs i fun c => (.items e (c.toListSkipping (fetch xs) (wire.item e) gap), cs.clear i)
  | .push _ | .pop => (.done, cs)

/-- What a step answers, and the cursors and the items after it, with the deeds done. -/
structure Walked (e : Element) where
  answer : CursorAnswer
  cursors : Cursors
  items : List e.Item
  deeds : List Deed

def walkStep (xs : List e.Item) (cs : Cursors) (s : CursorStep) : Walked e :=
  match s.action with
  | .push ⟨e', x⟩ =>
    if same : e' = e then ⟨.done, cs, xs ++ [wire.item e (same ▸ x)], e.pushDeeds⟩
    else ⟨.refused .wrongElement, cs, xs, []⟩
  | .pop => ⟨.found e (wire.found e xs.getLast?), cs, xs.dropLast, e.popDeeds xs⟩
  | action =>
    let (answer, cs) := walkOver wire xs cs s.cursor action
    ⟨answer, cs, xs, []⟩

theorem walkStep_over {xs : List e.Item} {cs : Cursors} {s : CursorStep} (noPush : ∀ x, s.action ≠ .push x)
    (noPop : s.action ≠ .pop) : walkStep wire xs cs s =
      ⟨(walkOver wire xs cs s.cursor s.action).1, (walkOver wire xs cs s.cursor s.action).2, xs, []⟩ := by
  obtain ⟨i, action⟩ := s
  cases action with
  | push x => exact absurd rfl (noPush x)
  | pop => exact absurd rfl noPop
  | _ => rfl

/-- The answers of a walk, the items after it and the deeds done. -/
def walk (xs : List e.Item) (cs : Cursors) :
    List CursorStep → List (CursorAnswer × Option UInt64) × List e.Item × List Deed
  | [] => ([], xs, [])
  | s :: rest =>
    let after := walkStep wire xs cs s
    let (answers, xs, ds) := walk after.items after.cursors rest
    ((after.answer, Walk.left after.cursors s.cursor) :: answers, xs, after.deeds ++ ds)

end

/-! ## Operations -/

/-- Takes the texts of the slots, up to the first slot that is empty. -/
def gather : List Nat → Act (List String × Bool)
  | [] => pure ([], true)
  | i :: rest => do
    match (← get).texts.get? i with
    | none => pure ([], false)
    | some _ => do
      let t ← Table.texts.take i
      let (ts, all) ← gather rest
      pure (t :: ts, all)

section
variable (wire : Wire)

/-- Pops an item of the vector of slot `v`; a text goes to a slot of its own. -/
def popItem (v : Nat) : (e : Element) → List e.Item → Act Answer
  | .text, ts => do
    match ts.getLast? with
    | none => pure (.poppedText none)
    | some t => do
      Table.vectors.put v ⟨.text, ts.dropLast⟩
      did [.popped]
      return .poppedText (some (← Table.texts.bind t, wire.text t))
  | .scalar p, xs => do
    Table.vectors.put v ⟨.scalar p, xs.dropLast⟩
    pure (.item (.scalar p) xs.getLast?)

def sliceItems : (e : Element) → List e.Item → Answer
  | .text, ts => .startsAtFirst (ts.head?.map fun _ => true)
  | .scalar p, xs =>
    .slice p (xs.take (wire.count xs.length)) (UInt64.ofNat xs.length) (UInt64.ofNat xs.length == 0) true

def perform : Op → Act Answer
  | .configure settings => do
    modify fun p => { p with settings }
    pure (.settings settings)
  | .resetLedger => do
    modify fun p => { p with deeds := [] }
    pure .done
  | .markLedger => do
    modify fun p => { p with mark := .ofDeeds p.deeds }
    pure .done
  | .ledgerSinceMark => do
    let p ← get
    pure (.ledger ((Ledger.ofDeeds p.deeds).since p.mark))
  | .newText => do
    did [.created]
    return .slot (← Table.texts.bind "")
  | .textFrom t => do
    did [.created]
    return .slot (← Table.texts.bind (wire.text t))
  | .readText i _ => return .reading (some (wire.reading (← Table.texts.peek i)))
  | .editText i _ edits => do
    let t ← Table.texts.peek i
    let t := edits.foldl wire.edit t
    Table.texts.put i t
    pure (.text (wire.text t))
  | .compareTexts i j => do
    let t ← Table.texts.peek i
    let u ← Table.texts.peek j
    pure (.truths [t == u, t == u])
  | .compareWithText i u => do
    let t ← Table.texts.peek i
    pure (.truths (List.replicate 6 (wire.text t == u)))
  | .hashText i => return .hash (textHash (← Table.texts.peek i))
  | .dropText i => do
    let _ ← Table.texts.take i
    did [.freed]
    pure .done
  | .releaseText i => do
    let t ← Table.texts.take i
    return .slot (← Table.released.bind t)
  | .adoptText i => do
    let t ← Table.released.take i
    return .slot (← Table.texts.bind t)
  | .freeReleased i => do
    let _ ← Table.released.take i
    did [.freed]
    pure .done
  | .countDistinct slots => do
    let (ts, all) ← gather slots
    did (List.replicate ts.length .freed)
    pure (if all then .number (UInt64.ofNat ts.dedup.length) else .refused .emptySlot)
  | .adoptOwned i => do
    let t ← Table.released.take i
    return .slot (← Table.owned.bind t)
  | .readOwned i => do
    let t ← Table.owned.peek i
    pure (.owned true (wire.text t) (wire.text t))
  | .editOwned i edits => do
    let t ← Table.owned.peek i
    let t := edits.foldl wire.edit t
    Table.owned.put i t
    pure (.text (wire.text t))
  | .dropOwned i => do
    let _ ← Table.owned.take i
    did [.freed]
    pure .done
  | .releaseOwned i => do
    let t ← Table.owned.take i
    return .slot (← Table.released.bind t)
  | .newVector e => do
    did [.vectorMade]
    return .slot (← Table.vectors.bind ⟨e, []⟩)
  | .collectVector e xs => do
    did (.vectorMade :: xs.flatMap fun _ => e.pushDeeds)
    return .slot (← Table.vectors.bind ⟨e, xs.map (wire.item e)⟩)
  | .push v ⟨e, x⟩ => do
    let xs ← itemsOf e v
    Table.vectors.put v ⟨e, xs ++ [wire.item e x]⟩
    did e.pushDeeds
    pure .done
  | .pushText v i => do
    let ts ← itemsOf .text v
    let t ← Table.texts.take i
    Table.vectors.put v ⟨.text, ts ++ [t]⟩
    did [.moved]
    pure .done
  | .extend v e ys => do
    let xs ← itemsOf e v
    Table.vectors.put v ⟨e, xs ++ ys.map (wire.item e)⟩
    did (ys.flatMap fun _ => e.pushDeeds)
    pure .done
  | .pop v => do
    let ⟨e, xs⟩ ← Table.vectors.peek v
    popItem wire v e xs
  | .get v i | .getMut v i => do
    let ⟨e, xs⟩ ← Table.vectors.peek v
    pure (.item e (xs[i.toNat]?.map (wire.item e)))
  | .itemAt v i => do
    let ⟨e, xs⟩ ← Table.vectors.peek v
    match xs[i.toNat]? with
    | none => pure (.outOfRange ⟨i, UInt64.ofNat xs.length⟩)
    | some x => pure (.value e (wire.item e x))
  | .vectorLen v => do
    let ⟨_, xs⟩ ← Table.vectors.peek v
    pure (.length (UInt64.ofNat xs.length) (UInt64.ofNat xs.length == 0))
  | .debugVector v => do
    let ⟨e, xs⟩ ← Table.vectors.peek v
    pure (.text (VectorOwner.listing e (wire.items e xs)))
  | .listVector v => do
    let ⟨e, xs⟩ ← Table.vectors.peek v
    pure (.items e (wire.items e xs))
  | .sliceVector v => do
    let ⟨e, xs⟩ ← Table.vectors.peek v
    pure (sliceItems wire e xs)
  | .dropVector v => do
    let ⟨e, xs⟩ ← Table.vectors.take v
    did [.vectorEnded (e.texts xs.length)]
    pure .done
  | .releaseVector v => do
    let xs ← Table.vectors.take v
    return .slot (← Table.releasedVectors.bind xs)
  | .adoptVector i => do
    let xs ← Table.releasedVectors.take i
    return .slot (← Table.vectors.bind xs)
  | .editItem v i edits => do
    let ts ← itemsOf .text v
    match ts[i.toNat]? with
    | none => pure (.reading none)
    | some t => do
      let t := edits.foldl wire.edit t
      Table.vectors.put v ⟨.text, ts.set i.toNat t⟩
      pure (.reading (some (wire.reading t)))
  | .readItem v i => do
    let ts ← itemsOf .text v
    pure (.hashedReading (ts[i.toNat]?.map fun t => (wire.reading t, textHash t)))
  | .compareItems v i j => do
    let ts ← itemsOf .text v
    pure (.truth (ts[i.toNat]? == ts[j.toNat]?))
  | .walk v steps => do
    let ⟨e, xs⟩ ← Table.vectors.peek v
    let (answers, xs, ds) := walk wire xs (Slots.empty.add (.ofLen (UInt64.ofNat xs.length))) steps
    Table.vectors.put v ⟨e, xs⟩
    did ds
    pure (.walk answers)
  | .directPush v ⟨e, x⟩ => do
    let xs ← itemsOf e v
    Table.vectors.put v ⟨e, xs ++ [wire.item e x]⟩
    did e.pushDeeds
    pure .done
  | .directPop v => do
    let ⟨e, xs⟩ ← Table.vectors.peek v
    Table.vectors.put v ⟨e, xs.dropLast⟩
    did (e.popDeeds xs)
    pure (.found e (wire.found e xs.getLast?))
  | .directGet v i | .directGetMut v i => do
    let ⟨e, xs⟩ ← Table.vectors.peek v
    pure (.found e (wire.found e xs[i.toNat]?))
  | .directLen v => do
    let ⟨_, xs⟩ ← Table.vectors.peek v
    pure (.number (UInt64.ofNat xs.length))

/-- One operation. A refusal leaves the values as they were. -/
def step (p : Plain) (op : Op) : Answer × Plain :=
  match (perform wire op).run p with
  | .ok r => r
  | .error why => (.refused why, p)

/-- Operations one after the other, with their answers. -/
def run (p : Plain) : List Op → List Answer × Plain
  | [] => ([], p)
  | op :: rest =>
    let (answer, p) := p.step wire op
    let (answers, p) := p.run rest
    (answer :: answers, p)

end

end Plain

end Custody
