/-
  Custody.Session.Walk — several cursors over one vector, moved one step at a time.
-/
import Custody.Session.Direct

namespace Custody

/-- Cursors by their index; a cursor that was used up leaves its slot empty. -/
abbrev Cursors := Slots Cursor

namespace Walk

variable {e : Element}

/-- What a fetched item looks like. -/
def shown (x : Option e.Lent) : Call CursorAnswer := do
  match x with
  | none => pure (.item e none)
  | some x => return .item e (some (← e.look x))

/-- A step that moves cursor `i`. -/
def move (cs : Cursors) (i : Nat) (step : Cursor → Call (Option e.Lent × Cursor)) :
    Call (CursorAnswer × Cursors) := do
  match cs.get? i with
  | none => pure (.refused .emptySlot, cs)
  | some c => do
    let (x, c) ← step c
    return (← shown x, cs.put i c)

/-- A step that looks at cursor `i`. -/
def peek (cs : Cursors) (i : Nat) (f : Cursor → Call CursorAnswer) :
    Call (CursorAnswer × Cursors) := do
  match cs.get? i with
  | none => pure (.refused .emptySlot, cs)
  | some c => return (← f c, cs)

/-- A step that uses cursor `i` up. -/
def consume (cs : Cursors) (i : Nat) (f : Cursor → Call CursorAnswer) :
    Call (CursorAnswer × Cursors) := do
  match cs.get? i with
  | none => pure (.refused .emptySlot, cs)
  | some c => return (← f c, cs.clear i)

def step (v : VectorOwner e) (cs : Cursors) (s : CursorStep) : Call (CursorAnswer × Cursors) :=
  let i := s.cursor
  match s.action with
  | .fresh => do
    let c ← v.cursor
    pure (.cursor cs.next, cs.add c)
  | .clone =>
    match cs.get? i with
    | none => pure (.refused .emptySlot, cs)
    | some c => pure (.cursor cs.next, cs.add c)
  | .next => move cs i (·.next v.get)
  | .nextBack => move cs i (·.nextBack v.get)
  | .nth n => move cs i (·.nth v.get n)
  | .nthBack n => move cs i (·.nthBack v.get n)
  | .get k => peek cs i fun _ => do shown (← v.get k)
  | .len => peek cs i fun c => pure (.number c.remaining)
  | .sizeHint => peek cs i fun c => pure (.sizeHint c.remaining c.remaining)
  | .count => consume cs i fun c => pure (.number c.remaining)
  | .last => consume cs i fun c => do shown (← c.last v.get)
  | .toList => consume cs i fun c => return .items e (← c.toList v.get e.look)
  | .toListRev => consume cs i fun c => return .items e (← c.toListRev v.get e.look)
  | .toListSkipping gap => consume cs i fun c => return .items e (← c.toListSkipping v.get e.look gap)
  | .push ⟨e', x⟩ =>
    if same : e' = e then do
      Direct.push e v.handle (same ▸ x)
      pure (.done, cs)
    else pure (.refused .wrongElement, cs)
  | .pop => do
    let x ← Direct.pop e v.handle
    pure (.found e x, cs)

/-- What the cursor of a step has left. -/
def left (cs : Cursors) (i : Nat) : Option UInt64 := (cs.get? i).map Cursor.remaining

def run (v : VectorOwner e) : Cursors → List CursorStep → Call (List (CursorAnswer × Option UInt64))
  | _, [] => pure []
  | cs, s :: rest => do
    let (answer, cs) ← step v cs s
    return (answer, left cs s.cursor) :: (← run v cs rest)

/-- A walk begins with one cursor at the start. -/
def start (v : VectorOwner e) (steps : List CursorStep) : Call (List (CursorAnswer × Option UInt64)) := do
  run v (Slots.empty.add (← v.cursor)) steps

end Walk

end Custody
