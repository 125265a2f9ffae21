/-
  Custody.Ledger — counters of what crossed the boundary.

  The ledger counts hand-overs, not what the allocator does: a text pushed into a vector is a
  transfer and not a free, although its allocation ends there.
-/
namespace Custody

/-- What is counted. -/
inductive Event where
  /-- A fresh owned text handle was handed out. -/
  | textAlloc
  /-- An owned text handle was given back. -/
  | textFree
  /-- An owned text handle was moved into a vector. -/
  | textTransfer
  | vectorAlloc
  /-- A vector was given back, with `texts` texts in it. -/
  | vectorFree (texts : UInt64)
  deriving DecidableEq, Repr

structure Ledger where
  textAllocs : UInt64
  textFrees : UInt64
  textTransfers : UInt64
  vectorAllocs : UInt64
  vectorFrees : UInt64
  /-- Texts that were still in a vector when it was given back. -/
  elementsDropped : UInt64
  deriving DecidableEq, Repr

/-- The difference, or zero where it would be negative. -/
def monus (a b : UInt64) : UInt64 := if b ≤ a then a - b else 0

theorem toNat_monus (a b : UInt64) : (monus a b).toNat = a.toNat - b.toNat := by
  unfold monus
  split
  · rename_i h; exact UInt64.toNat_sub_of_le _ _ h
  · rename_i h
    have : ¬ b.toNat ≤ a.toNat := fun h' => h (UInt64.le_iff_toNat_le.mpr h')
    simp; omega

namespace Ledger

def empty : Ledger := ⟨0, 0, 0, 0, 0, 0⟩

def record (l : Ledger) : Event → Ledger
  | .textAlloc => { l with textAllocs := l.textAllocs + 1 }
  | .textFree => { l with textFrees := l.textFrees + 1 }
  | .textTransfer => { l with textTransfers := l.textTransfers + 1 }
  | .vectorAlloc => { l with vectorAllocs := l.vectorAllocs + 1 }
  | .vectorFree texts =>
    { l with vectorFrees := l.vectorFrees + 1, elementsDropped := l.elementsDropped + texts }

/-- Owned text handles that the consumer still holds. -/
def liveTexts (l : Ledger) : UInt64 := monus (monus l.textAllocs l.textFrees) l.textTransfers

/-- Vectors that were not given back. -/
def liveVectors (l : Ledger) : UInt64 := monus l.vectorAllocs l.vectorFrees

/-- What was recorded after `earlier`, counter by counter; a counter that was set back in between
    counts as no less than zero. -/
def since (l earlier : Ledger) : Ledger where
  textAllocs := monus l.textAllocs earlier.textAllocs
  textFrees := monus l.textFrees earlier.textFrees
  textTransfers := monus l.textTransfers earlier.textTransfers
  vectorAllocs := monus l.vectorAllocs earlier.vectorAllocs
  vectorFrees := monus l.vectorFrees earlier.vectorFrees
  elementsDropped := monus l.elementsDropped earlier.elementsDropped

/-- The counters under the names of their written form, in its order. -/
def counters (l : Ledger) : List (String × UInt64) :=
  [("string_allocs", l.textAllocs), ("string_frees", l.textFrees),
    ("string_transfers", l.textTransfers), ("vec_allocs", l.vectorAllocs),
    ("vec_frees", l.vectorFrees), ("elements_dropped", l.elementsDropped)]

/-- The counters in order, and after them the two live counts. -/
def figures (l : Ledger) : List UInt64 := l.counters.map (·.2) ++ [l.liveTexts, l.liveVectors]

def debug (l : Ledger) : String :=
  "LedgerSnapshot \x7b " ++
    ", ".intercalate (l.counters.map fun c => c.1 ++ ": " ++ toString c.2) ++ " \x7d"

/-- One JSON object, without blanks. -/
def json (l : Ledger) : String :=
  "\x7b" ++ ",".intercalate (l.counters.map fun c => "\"" ++ c.1 ++ "\":" ++ toString c.2) ++ "\x7d"

end Ledger

end Custody
