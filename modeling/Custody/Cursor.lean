/-
  Custody.Cursor — a walk over numbered items from both ends.

  A cursor keeps the end that the items had when it was made, and fetches them one at a time by
  their number, in whatever way `fetch` does it. It stops for good when a fetch finds nothing.
-/
namespace Custody

structure Cursor where
  /-- The number of the next item from the front. -/
  front : UInt64
  /-- One more than the number of the next item from the back. -/
  back : UInt64
  deriving DecidableEq, Repr

/-- The sum, or the largest word where it would not fit. -/
def satAdd (a b : UInt64) : UInt64 := if a ≤ a + b then a + b else UInt64.ofNat (UInt64.size - 1)

theorem toNat_satAdd (a b : UInt64) : (satAdd a b).toNat = min (a.toNat + b.toNat) (UInt64.size - 1) := by
  have ha := a.toNat_lt
  have hb := b.toNat_lt
  have sum : (a + b).toNat = (a.toNat + b.toNat) % UInt64.size := UInt64.toNat_add a b
  have top : (UInt64.ofNat (UInt64.size - 1)).toNat = UInt64.size - 1 := by decide
  unfold satAdd
  -- the sum wraps exactly when it falls below a summand
  by_cases h : a ≤ a + b
  · rw [if_pos h]
    rw [UInt64.le_iff_toNat_le] at h
    simp only [UInt64.size] at sum ⊢
    omega
  · rw [if_neg h, top]
    rw [UInt64.le_iff_toNat_le] at h
    simp only [UInt64.size] at sum ⊢
    omega

namespace Cursor

variable {m : Type → Type} [Monad m] {α β : Type}

/-- A cursor with all of `len` items before it. -/
def ofLen (len : UInt64) : Cursor := ⟨0, len⟩

/-- How many items are still to come, from either end. -/
def remaining (c : Cursor) : UInt64 := c.back - c.front

def next (fetch : UInt64 → m (Option α)) (c : Cursor) : m (Option α × Cursor) := do
  if c.back ≤ c.front then pure (none, c)
  else
    match ← fetch c.front with
    | some x => pure (some x, { c with front := c.front + 1 })
    | none => pure (none, { c with front := c.back })

/-- The cursor without the next `n` items, or without all that are left if they are fewer. -/
def skip (n : UInt64) (c : Cursor) : Cursor :=
  let front := satAdd c.front n
  { c with front := if front ≤ c.back then front else c.back }

/-- Skips `n` items without fetching them, then takes the next one. -/
def nth (fetch : UInt64 → m (Option α)) (n : UInt64) (c : Cursor) : m (Option α × Cursor) :=
  (c.skip n).next fetch

def nextBack (fetch : UInt64 → m (Option α)) (c : Cursor) : m (Option α × Cursor) := do
  if c.back ≤ c.front then pure (none, c)
  else
    let c := { c with back := c.back - 1 }
    match ← fetch c.back with
    | some x => pure (some x, c)
    | none => pure (none, { c with back := c.front })

/-- Takes up to `n` items from the back; the answer says whether there were as many. -/
def skipBack (fetch : UInt64 → m (Option α)) : Nat → Cursor → m (Bool × Cursor)
  | 0, c => pure (true, c)
  | n + 1, c => do
    match ← c.nextBack fetch with
    | (some _, c) => skipBack fetch n c
    | (none, c) => pure (false, c)

/-- Takes `n` items from the back and then one more, which is the answer. More are not taken than
    there are. -/
def nthBack (fetch : UInt64 → m (Option α)) (n : UInt64) (c : Cursor) : m (Option α × Cursor) := do
  let (all, c) ← skipBack fetch (min n.toNat (c.remaining.toNat + 1)) c
  if all then c.nextBack fetch else pure (none, c)

/-! ## Walks to the end -/

/-- All items to the end of a walk of at most `n` steps, each looked at before the next is fetched. -/
def gather (step : Cursor → m (Option α × Cursor)) (look : α → m β) : Nat → Cursor → m (List β)
  | 0, _ => pure []
  | n + 1, c => do
    match ← step c with
    | (none, _) => pure []
    | (some x, c) => do
      let item ← look x
      return item :: (← gather step look n c)

/-- The last item of a walk of at most `n` steps, or `last` if there is none. -/
def lastOf (step : Cursor → m (Option α × Cursor)) : Nat → Option α → Cursor → m (Option α)
  | 0, last, _ => pure last
  | n + 1, last, c => do
    match ← step c with
    | (none, _) => pure last
    | (some x, c) => lastOf step n (some x) c

/-- All items that are left, from the front. -/
def toList (fetch : UInt64 → m (Option α)) (look : α → m β) (c : Cursor) : m (List β) :=
  gather (next fetch) look c.remaining.toNat c

/-- All items that are left, from the back. -/
def toListRev (fetch : UInt64 → m (Option α)) (look : α → m β) (c : Cursor) : m (List β) :=
  gather (nextBack fetch) look c.remaining.toNat c

/-- The first item that is left, and then always the one after `gap` others. -/
def toListSkipping (fetch : UInt64 → m (Option α)) (look : α → m β) (gap : UInt64) (c : Cursor) :
    m (List β) := do
  match ← c.nth fetch 0 with
  | (none, _) => pure []
  | (some x, c) => do
    let item ← look x
    return item :: (← gather (nth fetch gap) look c.remaining.toNat c)

/-- The item at the end; all items before it are fetched on the way. -/
def last (fetch : UInt64 → m (Option α)) (c : Cursor) : m (Option α) :=
  lastOf (next fetch) c.remaining.toNat none c

end Cursor

end Custody
