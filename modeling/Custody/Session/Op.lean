/-
  Custody.Session.Op — what a consumer can do in a session, and what it is told.

  Values are bound to numbered slots: owned texts, plain owners of a text, vectors, and the handles
  that owners let go of. A new value takes the next slot of its kind, and a slot that was emptied
  stays empty.
-/
import Custody.Owner.Vector

namespace Custody

/-- An item together with its type. -/
abbrev AnyItem := (e : Element) × e.Item

/-- A vector together with the type of its items. -/
abbrev AnyVector := (e : Element) × VectorOwner e

/-! ## Walks -/

inductive CursorAction where
  /-- A new cursor at the start. -/
  | fresh
  /-- A new cursor where this one stands. -/
  | clone
  | next
  | nextBack
  | nth (n : UInt64)
  | nthBack (n : UInt64)
  | get (index : UInt64)
  | len
  | sizeHint
  /-- The remaining ones use the cursor up … -/
  | count
  | last
  | toList
  | toListRev
  | toListSkipping (gap : UInt64)
  /-- … and these change the vector under it, past its owner. -/
  | push (item : AnyItem)
  | pop

/-- The first item that is left and every `n`-th one after it, where `n` is not 0: nothing goes on by no items. -/
def CursorAction.toListBy (n : UInt64) : CursorAction := .toListSkipping (n - 1)

structure CursorStep where
  cursor : Nat
  action : CursorAction

/-! ## Operations -/

inductive Op where
  /- settings and ledger -/
  | configure (settings : Settings)
  | resetLedger
  /-- Remembers the ledger as it is now. -/
  | markLedger
  | ledgerSinceMark
  /- owned texts, by their slots -/
  | newText
  | textFrom (text : String)
  | readText (slot : Nat) (via : Access)
  | editText (slot : Nat) (via : Access) (edits : List Edit)
  | compareTexts (a b : Nat)
  | compareWithText (slot : Nat) (text : String)
  | hashText (slot : Nat)
  | dropText (slot : Nat)
  | releaseText (slot : Nat)
  | adoptText (released : Nat)
  /-- Gives a released handle back, past any owner. -/
  | freeReleased (released : Nat)
  /-- Moves the texts into a set, in order, and drops the set. -/
  | countDistinct (slots : List Nat)
  /- plain owners of a text -/
  | adoptOwned (released : Nat)
  | readOwned (slot : Nat)
  /-- Through its exclusive loan. -/
  | editOwned (slot : Nat) (edits : List Edit)
  | dropOwned (slot : Nat)
  | releaseOwned (slot : Nat)
  /- vectors, by their slots -/
  | newVector (e : Element)
  | collectVector (e : Element) (items : List e.Item)
  | push (vector : Nat) (item : AnyItem)
  /-- Moves the owned text of a slot in. -/
  | pushText (vector slot : Nat)
  | extend (vector : Nat) (e : Element) (items : List e.Item)
  | pop (vector : Nat)
  | get (vector : Nat) (index : UInt64)
  | getMut (vector : Nat) (index : UInt64)
  | itemAt (vector : Nat) (index : UInt64)
  | vectorLen (vector : Nat)
  | debugVector (vector : Nat)
  | listVector (vector : Nat)
  | sliceVector (vector : Nat)
  | dropVector (vector : Nat)
  | releaseVector (vector : Nat)
  | adoptVector (released : Nat)
  | editItem (vector : Nat) (index : UInt64) (edits : List Edit)
  | readItem (vector : Nat) (index : UInt64)
  | compareItems (vector : Nat) (i j : UInt64)
  | walk (vector : Nat) (steps : List CursorStep)
  /- the store's functions on a vector, called past its owner -/
  | directPush (vector : Nat) (item : AnyItem)
  | directPop (vector : Nat)
  | directGet (vector : Nat) (index : UInt64)
  | directGetMut (vector : Nat) (index : UInt64)
  | directLen (vector : Nat)

/-! ## Answers -/

/-- Why an operation was not begun. -/
inductive Refusal where
  /-- The slot was never filled, or its value was moved out or dropped. -/
  | emptySlot
  /-- The vector's items are of another type. -/
  | wrongElement
  deriving DecidableEq, Repr

/-- What the store's own lookups find: a text or nothing, or a tagged value. -/
abbrev Element.Found : Element → Type
  | .text => Option String
  | .scalar p => Tagged p.Value

inductive CursorAnswer where
  | done
  | refused (why : Refusal)
  | cursor (index : Nat)
  | item (e : Element) (x : Option e.Item)
  | number (n : UInt64)
  | sizeHint (least most : UInt64)
  | items (e : Element) (xs : List e.Item)
  | found (e : Element) (x : e.Found)

inductive Answer where
  | done
  | refused (why : Refusal)
  | slot (index : Nat)
  | settings (s : Settings)
  | ledger (l : Ledger)
  | number (n : UInt64)
  | hash (h : UInt64)
  | text (t : String)
  | truth (b : Bool)
  | truths (bs : List Bool)
  | reading (r : Option Reading)
  /-- A reading with the store's own hash. -/
  | hashedReading (r : Option (Reading × UInt64))
  /-- Whether an owner owns, and its text by both kinds of loan. -/
  | owned (owns : Bool) (shared exclusive : String)
  | item (e : Element) (x : Option e.Item)
  /-- A popped text with its new slot. -/
  | poppedText (x : Option (Nat × String))
  | value (e : Element) (x : e.Item)
  | outOfRange (r : VectorOwner.OutOfRange)
  | length (len : UInt64) (isEmpty : Bool)
  | items (e : Element) (xs : List e.Item)
  | slice (p : Primitive) (xs : List p.Value) (len : UInt64) (isEmpty sameStart : Bool)
  /-- Whether the storage starts where the first item lies; nothing for an empty vector. -/
  | startsAtFirst (yes : Option Bool)
  | found (e : Element) (x : e.Found)
  /-- Each step's answer, with what its cursor has left. -/
  | walk (steps : List (CursorAnswer × Option UInt64))

end Custody
