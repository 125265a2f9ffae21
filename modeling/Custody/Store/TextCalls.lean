/-
  Custody.Store.TextCalls — the exported functions of the text type.

  A text is read and edited alike at every place, be it an allocation of its own or an item of a
  vector. Only allocations of their own are handed out and given back.
-/
import Custody.Hash.Sip
import Custody.Store
import Custody.Text.Blank
import Custody.View.Text

namespace Custody

/-- The store's own hash of a text: its bytes and one byte that no text has. -/
def textHash (text : String) : UInt64 := Hash.sip 0 0 (Text.bytesOf text ++ [0xff])

namespace TextCalls

/-- Hands a text out in an allocation of its own. -/
def handOut (t : String) : Call Handle := do
  Store.count .textAlloc
  Store.allocate (.text t)

/-- Takes a text out of its allocation, which ends. -/
def takeBack (h : Handle) : Call String := do
  let t ← Store.boxedText h
  Store.release h
  pure t

def new : Call Handle := do
  Store.enter (.text .new)
  handOut ""

def ofView (v : TextView) : Call Handle := do
  Store.enter (.text .ofView)
  handOut v.trusted

def free (h : Handle) : Call Unit := do
  Store.enter (.text .free)
  Store.count .textFree
  discard (takeBack h)

/-- How many bytes the text has. -/
def len (p : Place) : Call UInt64 := do
  Store.enter (.text .len)
  return UInt64.ofNat (← Store.textAt p).utf8ByteSize

def view (p : Place) : Call TextView := do
  Store.enter (.text .view)
  return .ofText (← Store.textAt p)

/-- The text without the blanks at its two ends. -/
def trim (p : Place) : Call TextView := do
  Store.enter (.text .trim)
  return .ofText (Text.trim (← Store.textAt p))

def append (p : Place) (v : TextView) : Call Unit := do
  Store.enter (.text .append)
  Store.editText p (· ++ v.trusted)

def clear (p : Place) : Call Unit := do
  Store.enter (.text .clear)
  Store.editText p fun _ => ""

def equals (p q : Place) : Call Bool := do
  Store.enter (.text .equals)
  return (← Store.textAt p) == (← Store.textAt q)

def hash (p : Place) : Call UInt64 := do
  Store.enter (.text .hash)
  return textHash (← Store.textAt p)

end TextCalls

end Custody
