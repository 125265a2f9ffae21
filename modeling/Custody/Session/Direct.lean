/-
  Custody.Session.Direct — the store's vector functions as a caller without owners uses them.
-/
import Custody.Session.Op

namespace Custody.Direct

def push : (e : Element) → Handle → e.Item → Call Unit
  | .text, v, t => do
    let h ← TextCalls.ofView (.ofText t)
    VectorCalls.pushText v h
  | .scalar p, v, x => VectorCalls.pushScalar p v x

/-- Pops an item; a text is read and its allocation given back. -/
def pop : (e : Element) → Handle → Call e.Found
  | .text, v => do
    match ← VectorCalls.popText v with
    | none => pure none
    | some h => do
      let t ← (Place.whole h).text
      TextCalls.free h
      pure (some t)
  | .scalar p, v => VectorCalls.popScalar p v

/-- The text at a place that was lent, if one was. -/
def lookAt : Option Place → Call (Option String)
  | none => pure none
  | some p => some <$> p.text

def get : (e : Element) → Handle → UInt64 → Call e.Found
  | .text, v, i => do lookAt (← VectorCalls.getText v i)
  | .scalar p, v, i => VectorCalls.getScalar p v i

def getMut : (e : Element) → Handle → UInt64 → Call e.Found
  | .text, v, i => do lookAt (← VectorCalls.getMutText v i)
  | .scalar p, v, i => VectorCalls.getMutScalar p v i

end Custody.Direct
