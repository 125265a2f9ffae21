/-
  Custody.Owner — the one who has to give an allocation back.

  An owner gives its handle back exactly once, when it is dropped while it still owns the memory.
  It lets go of the handle by `release`, which consumes it: its own drop then does nothing.
-/
import Custody.Store

namespace Custody

/-- An opaque type as its owners see it: its name, where its owners' records go, and how a handle is
    given back. -/
structure OpaqueType (m : Type → Type) where
  name : String
  say : LogRecord → m Unit
  free : Handle → m Unit

structure Owner where
  handle : Handle
  ownsMemory : Bool
  deriving DecidableEq

/-- A read-only loan of what somebody else owns. -/
structure Loan where
  place : Place
  deriving DecidableEq

/-- A loan that may be written through, and is the only one while it lasts. -/
structure ExclusiveLoan where
  place : Place
  deriving DecidableEq

def ExclusiveLoan.asShared (l : ExclusiveLoan) : Loan := ⟨l.place⟩

namespace Owner

variable {m : Type → Type}

/-- Takes over a handle that nobody else owns. -/
def adopt (h : Handle) : Owner := ⟨h, true⟩

def borrow (o : Owner) : Loan := ⟨.whole o.handle⟩

def borrowMut (o : Owner) : ExclusiveLoan := ⟨.whole o.handle⟩

variable [Monad m] (type : OpaqueType m)

/-- The owner's end: it gives back what it owns. -/
def drop (o : Owner) : m Unit := do
  if o.ownsMemory then
    type.say (.freeing type.name o.handle)
    type.free o.handle

/-- Hands the handle to whoever will own it next. The owner ends here, no longer owning it. -/
def release (o : Owner) : m Handle := do
  let o := { o with ownsMemory := false }
  type.say (.released type.name o.handle)
  o.drop type
  pure o.handle

end Owner

end Custody
