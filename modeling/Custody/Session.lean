/-
  Custody.Session — a consumer at work: values in slots on one side, the store on the other.

  An operation that needs a slot which is empty, or a vector of another element type, is refused
  before it begins. `step` runs one operation; a fault of the store would end the session.
-/
import Custody.Owner.TextSet
import Custody.Session.Walk

namespace Custody

structure Session where
  store : Store
  texts : Slots Owner
  owned : Slots Owner
  vectors : Slots AnyVector
  /-- Handles that owners of texts let go of. -/
  released : Slots Handle
  releasedVectors : Slots (Element × Handle)
  /-- The ledger as it was last marked. -/
  mark : Ledger

namespace Session

/-- A session before its first operation. -/
def startOn (st : Store) : Session := ⟨st, .empty, .empty, .empty, .empty, .empty, .empty⟩

def start : Session := startOn .initial

/-- Why an operation stopped. -/
inductive Stop where
  | refused (why : Refusal)
  | fault (f : Fault)

abbrev Act := StateT Session (Except Stop)

/-- Runs calls on the session's store. -/
def call {α : Type} (c : Call α) : Act α := fun s =>
  match c.run s.store with
  | .ok (a, store) => .ok (a, { s with store })
  | .error f => .error (.fault f)

/-! ## Slots -/

/-- One of the session's tables. -/
structure Table (α : Type) where
  of : Session → Slots α
  set : Session → Slots α → Session

namespace Table

def texts : Table Owner := ⟨Session.texts, fun s t => { s with texts := t }⟩
def owned : Table Owner := ⟨Session.owned, fun s t => { s with owned := t }⟩
def vectors : Table AnyVector := ⟨Session.vectors, fun s t => { s with vectors := t }⟩
def released : Table Handle := ⟨Session.released, fun s t => { s with released := t }⟩
def releasedVectors : Table (Element × Handle) :=
  ⟨Session.releasedVectors, fun s t => { s with releasedVectors := t }⟩

variable {α : Type} (t : Table α)

/-- The value of slot `i`, which keeps it. -/
def peek (i : Nat) : Act α := do
  match (t.of (← get)).get? i with
  | some a => pure a
  | none => throw (.refused .emptySlot)

/-- The value of slot `i`, which loses it. -/
def take (i : Nat) : Act α := do
  let a ← t.peek i
  modify fun s => t.set s ((t.of s).clear i)
  pure a

/-- Binds a value to the next slot. -/
def bind (a : α) : Act Nat := do
  let i := (t.of (← get)).next
  modify fun s => t.set s ((t.of s).add a)
  pure i

end Table

/-- The vector of slot `v`, whose items must be texts. -/
def textVector (v : Nat) : Act (VectorOwner .text) := do
  match ← Table.vectors.peek v with
  | ⟨.text, owner⟩ => pure owner
  | ⟨.scalar _, _⟩ => throw (.refused .wrongElement)

/-- The vector of slot `v`, whose items must be of type `e`. -/
def vectorOf (e : Element) (v : Nat) : Act (VectorOwner e) := do
  let ⟨e', owner⟩ ← Table.vectors.peek v
  if same : e' = e then pure (same ▸ owner) else throw (.refused .wrongElement)

/-! ## Operations -/

/-- Takes the texts of the slots into a set, up to the first slot that is empty. -/
def gatherSet : TextSet → List Nat → Act (TextSet × Bool)
  | set, [] => pure (set, true)
  | set, i :: rest => do
    match (← get).texts.get? i with
    | none => pure (set, false)
    | some _ => do
      let o ← Table.texts.take i
      let set ← call (set.insert o)
      gatherSet set rest

/-- Pops an item; a text goes to a slot of its own and is read there. -/
def popItem : (e : Element) → VectorOwner e → Act Answer
  | .text, v => do
    match ← call v.pop with
    | none => pure (.poppedText none)
    | some o => do
      let i ← Table.texts.bind o
      let t ← call (Place.whole o.handle).text
      pure (.poppedText (some (i, t)))
  | .scalar p, v => return .item (.scalar p) (← call v.pop)

/-- An item that was lent, or nothing. -/
def showItem (e : Element) : Option e.Lent → Act Answer
  | none => pure (.item e none)
  | some x => return .item e (some (← call (e.look x)))

/-- A primitive vector by its storage; a text vector by where its storage starts. -/
def sliceItems : (e : Element) → VectorOwner e → Act Answer
  | .text, v => do
    match ← call (v.get 0) with
    | none => pure (.startsAtFirst none)
    | some first => return .startsAtFirst (some ((← call v.start) == first))
  | .scalar p, v => do
    let xs ← call v.storage
    let view ← call v.storageView
    let start ← call v.start
    pure (.slice p xs view.len view.isEmpty (view.start == some start))

/-- Runs a reader on a place that was lent, if one was. -/
def onLoan {α : Type} (p : Option Place) (f : Place → Call α) : Act (Option α) := do
  match p with
  | none => pure none
  | some p => some <$> call (f p)

def perform : Op → Act Answer
  | .configure settings => do
    call (Store.configure settings)
    return .settings (← get).store.settings
  | .resetLedger => do
    modify fun s => { s with store := { s.store with ledger := .empty } }
    pure .done
  | .markLedger => do
    modify fun s => { s with mark := s.store.ledger }
    pure .done
  | .ledgerSinceMark => do
    let s ← get
    pure (.ledger (s.store.ledger.since s.mark))
  | .newText => do
    let o ← call TextOwner.new
    return .slot (← Table.texts.bind o)
  | .textFrom t => do
    let o ← call (TextOwner.ofText t)
    return .slot (← Table.texts.bind o)
  | .readText i via => do
    let o ← Table.texts.peek i
    return .reading (some (← call (o.reach via).read))
  | .editText i via edits => do
    let o ← Table.texts.peek i
    call ((o.reach via).editAll edits)
    return .text (← call (Place.whole o.handle).text)
  | .compareTexts i j => do
    let a ← Table.texts.peek i
    let b ← Table.texts.peek j
    let owners ← call ((a.reach .owner).equals (b.reach .owner))
    let loans ← call ((a.reach .shared).equals (b.reach .shared))
    pure (.truths [owners, loans])
  | .compareWithText i t => do
    let o ← Table.texts.peek i
    let ways := [.owner, .owner, .shared, .shared, .exclusive, .exclusive]
    return .truths (← ways.mapM fun via => call ((o.reach via).equalsText t))
  | .hashText i => do
    let o ← Table.texts.peek i
    return .hash (← call (Place.whole o.handle).storeHash)
  | .dropText i => do
    let o ← Table.texts.take i
    call (TextOwner.drop o)
    pure .done
  | .releaseText i => do
    let o ← Table.texts.take i
    let h ← call (TextOwner.release o)
    return .slot (← Table.released.bind h)
  | .adoptText i => do
    let h ← Table.released.take i
    return .slot (← Table.texts.bind (.adopt h))
  | .freeReleased i => do
    let h ← Table.released.take i
    call (TextCalls.free h)
    pure .done
  | .countDistinct slots => do
    let (set, all) ← gatherSet [] slots
    call set.drop
    pure (if all then .number (UInt64.ofNat set.length) else .refused .emptySlot)
  | .adoptOwned i => do
    let h ← Table.released.take i
    return .slot (← Table.owned.bind (.adopt h))
  | .readOwned i => do
    let o ← Table.owned.peek i
    let shared ← call o.borrow.place.text
    let exclusive ← call o.borrowMut.asShared.place.text
    pure (.owned o.ownsMemory shared exclusive)
  | .editOwned i edits => do
    let o ← Table.owned.peek i
    call (o.borrowMut.place.editAll edits)
    return .text (← call o.borrow.place.text)
  | .dropOwned i => do
    let o ← Table.owned.take i
    call (TextOwner.drop o)
    pure .done
  | .releaseOwned i => do
    let o ← Table.owned.take i
    let h ← call (TextOwner.release o)
    return .slot (← Table.released.bind h)
  | .newVector e => do
    let v ← call (VectorOwner.new e)
    return .slot (← Table.vectors.bind ⟨e, v⟩)
  | .collectVector e xs => do
    let v ← call (VectorOwner.collect e (xs.map e.make))
    return .slot (← Table.vectors.bind ⟨e, v⟩)
  | .push v ⟨e, x⟩ => do
    let owner ← vectorOf e v
    let item ← call (e.make x)
    call (owner.push item)
    pure .done
  | .pushText v i => do
    let owner ← textVector v
    let o ← Table.texts.take i
    call (owner.push o)
    pure .done
  | .extend v e xs => do
    let owner ← vectorOf e v
    call (owner.extend (xs.map e.make))
    pure .done
  | .pop v => do
    let ⟨e, owner⟩ ← Table.vectors.peek v
    popItem e owner
  | .get v i => do
    let ⟨e, owner⟩ ← Table.vectors.peek v
    showItem e (← call (owner.get i))
  | .getMut v i => do
    let ⟨e, owner⟩ ← Table.vectors.peek v
    showItem e (← call (owner.getMut i))
  | .itemAt v i => do
    let ⟨e, owner⟩ ← Table.vectors.peek v
    match ← call (owner.itemAt i) with
    | .error r => pure (.outOfRange r)
    | .ok x => return .value e (← call (e.look x))
  | .vectorLen v => do
    let ⟨_, owner⟩ ← Table.vectors.peek v
    let len ← call owner.len
    return .length len (← call owner.isEmpty)
  | .debugVector v => do
    let ⟨_, owner⟩ ← Table.vectors.peek v
    return .text (← call owner.debug)
  | .listVector v => do
    let ⟨e, owner⟩ ← Table.vectors.peek v
    return .items e (← call owner.toList)
  | .sliceVector v => do
    let ⟨e, owner⟩ ← Table.vectors.peek v
    sliceItems e owner
  | .dropVector v => do
    let ⟨_, owner⟩ ← Table.vectors.take v
    call owner.drop
    pure .done
  | .releaseVector v => do
    let ⟨e, owner⟩ ← Table.vectors.take v
    let h ← call owner.release
    return .slot (← Table.releasedVectors.bind (e, h))
  | .adoptVector i => do
    let (e, h) ← Table.releasedVectors.take i
    return .slot (← Table.vectors.bind ⟨e, .adopt e h⟩)
  | .editItem v i edits => do
    let owner ← textVector v
    let p ← call (owner.getMut i)
    return .reading (← onLoan p fun p => do p.editAll edits; p.read)
  | .readItem v i => do
    let owner ← textVector v
    let p ← call (owner.get i)
    return .hashedReading (← onLoan p fun p => do return (← p.read, ← p.storeHash))
  | .compareItems v i j => do
    let owner ← textVector v
    let a ← call (owner.get i)
    let b ← call (owner.get j)
    match a, b with
    | some p, some q => return .truth (← call (p.equals q))
    | none, none => pure (.truth true)
    | _, _ => pure (.truth false)
  | .walk v steps => do
    let ⟨_, owner⟩ ← Table.vectors.peek v
    return .walk (← call (Walk.start owner steps))
  | .directPush v ⟨e, x⟩ => do
    let owner ← vectorOf e v
    call (Direct.push e owner.handle x)
    pure .done
  | .directPop v => do
    let ⟨e, owner⟩ ← Table.vectors.peek v
    return .found e (← call (Direct.pop e owner.handle))
  | .directGet v i => do
    let ⟨e, owner⟩ ← Table.vectors.peek v
    return .found e (← call (Direct.get e owner.handle i))
  | .directGetMut v i => do
    let ⟨e, owner⟩ ← Table.vectors.peek v
    return .found e (← call (Direct.getMut e owner.handle i))
  | .directLen v => do
    let ⟨e, owner⟩ ← Table.vectors.peek v
    return .number (← call (VectorCalls.len e owner.handle))

/-- One operation. A refusal leaves the session as it was. -/
def step (s : Session) (op : Op) : Except Fault (Answer × Session) :=
  match (perform op).run s with
  | .ok r => .ok r
  | .error (.refused why) => .ok (.refused why, s)
  | .error (.fault f) => .error f

/-- Operations one after the other, with their answers. -/
def run (s : Session) : List Op → Except Fault (List Answer × Session)
  | [] => .ok ([], s)
  | op :: rest => do
    let (answer, s) ← s.step op
    let (answers, s) ← s.run rest
    .ok (answer :: answers, s)

/-- The session's end: every value that is left is dropped, texts first, then plain owners, then
    vectors, each kind in the order of its slots. Released handles are nobody's. -/
def close (s : Session) : Except Fault Session := do
  let calls : List (Call Unit) :=
    s.texts.entries.map (TextOwner.drop ·.2) ++ s.owned.entries.map (TextOwner.drop ·.2) ++
      s.vectors.entries.map (·.2.2.drop)
  let (_, store) ← (calls.forM id).run s.store
  .ok { s with store, texts := .empty, owned := .empty, vectors := .empty }

end Session

end Custody
