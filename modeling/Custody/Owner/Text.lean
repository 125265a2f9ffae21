/-
  Custody.Owner.Text — texts as a consumer holds them.

  A text is read through its owner, a loan or an exclusive loan, and edited through the owner or an
  exclusive loan. All of them come down to the place where the text lies.
-/
import Custody.Owner
import Custody.Store.TextCalls
import Custody.Text.Quoted

namespace Custody

def textType : OpaqueType Call := ⟨Element.textName, Store.say, TextCalls.free⟩

namespace TextOwner

def new : Call Owner := Owner.adopt <$> TextCalls.new

def ofText (t : String) : Call Owner := Owner.adopt <$> TextCalls.ofView (.ofText t)

def drop (o : Owner) : Call Unit := o.drop textType

def release (o : Owner) : Call Handle := o.release textType

end TextOwner

/-- The three ways to reach a text through its owner. -/
inductive Access where
  | owner | shared | exclusive
  deriving DecidableEq, Repr

/-- The place that an owner reaches in the given way. -/
def Owner.reach (o : Owner) : Access → Place
  | .owner => .whole o.handle
  | .shared => o.borrow.place
  | .exclusive => o.borrowMut.place

namespace Place

def len (p : Place) : Call UInt64 := TextCalls.len p

def isEmpty (p : Place) : Call Bool := return (← p.len) == 0

def view (p : Place) : Call TextView := TextCalls.view p

def text (p : Place) : Call String := return (← p.view).trusted

def trimmed (p : Place) : Call String := return (← TextCalls.trim p).trusted

def display (p : Place) : Call String := p.text

def debug (p : Place) : Call String := return Text.quote (← p.text)

def storeHash (p : Place) : Call UInt64 := TextCalls.hash p

/-- What a fresh hasher makes of the text: it is fed the store's hash of it. -/
def hash (p : Place) : Call UInt64 := return Hash.sip 0 0 (Hash.wordBytes (← p.storeHash))

def equals (p q : Place) : Call Bool := TextCalls.equals p q

def equalsText (p : Place) (t : String) : Call Bool := return (← p.text) == t

end Place

/-- Everything that a view says of its text. -/
structure Reading where
  len : UInt64
  isEmpty : Bool
  text : String
  trimmed : String
  viewLen : UInt64
  display : String
  debug : String
  hash : UInt64
  deriving DecidableEq, Repr

def Place.read (p : Place) : Call Reading := do
  let len ← p.len
  let isEmpty ← p.isEmpty
  let text ← p.text
  let trimmed ← p.trimmed
  let view ← p.view
  let display ← p.display
  let debug ← p.debug
  let hash ← p.hash
  pure ⟨len, isEmpty, text, trimmed, view.len, display, debug, hash⟩

/-- A change to a text. -/
inductive Edit where
  | push (t : String)
  | clear
  deriving DecidableEq, Repr

def Place.edit (p : Place) : Edit → Call Unit
  | .push t => TextCalls.append p (.ofText t)
  | .clear => TextCalls.clear p

def Place.editAll (p : Place) (edits : List Edit) : Call Unit := edits.forM p.edit

end Custody
