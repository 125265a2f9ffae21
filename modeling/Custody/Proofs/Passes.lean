/-
  Custody.Proofs.Passes — which boundary calls an adapter makes in one pass over a vector.

  `VectorOwner.pass` is a pass that takes a note of every call on the way: the adapter's own steps, in a monad
  that writes down what is asked of the vector. Without the notes it is the pass itself (`forget_pass`), whose
  turns are steps of a walk (`step_turn`), and a store that traces logs the calls noted and no others.

  The indices before a cursor (`Cursor.Awaits`) are all that is still to be fetched. Every turn that yields an
  item fetches it and leaves its index behind; `nth` leaves others behind as well, and no cursor ever goes back.
  So each item is fetched once at most (`fetched_once`).
-/
import Mathlib.Data.List.Nodup
import Mathlib.Data.List.Perm.Basic
import Custody.Proofs.Walks

namespace Custody

/-! ## Boundary calls, noted -/

/-- What an adapter asks of its vector. -/
inductive Asked where
  | len
  | get (index : UInt64)
  deriving DecidableEq, Repr

namespace Asked

def op : Asked → VectorOp
  | .len => .len
  | .get _ => .get

def entry (e : Element) (a : Asked) : Entry := .vector e a.op

/-- The number of the item that is asked for. -/
def index? : Asked → Option Nat
  | .len => none
  | .get i => some i.toNat

/-- The call, with a note that it was made. -/
def noting {α : Type} (a : Asked) (c : Call α) : StateT (List Asked) Call α := do
  modify (· ++ [a])
  c

end Asked

/-- The store after boundary calls that only look: the log has them if calls are traced. -/
def Store.hearing (st : Store) (es : List Entry) : Store :=
  if st.settings.traceCalls then { st with log := st.log ++ (es.map LogRecord.call).toArray } else st

/-! ## Passes -/

/-- What is asked of an adapter; counting the items that are left uses it up. -/
inductive Turn where
  | next
  | nextBack
  | nth (n : UInt64)
  | remaining
  | len
  | sizeHint
  | count
  deriving DecidableEq, Repr

inductive Reply (α : Type) where
  | item (x : Option α)
  | number (n : UInt64)
  | sizeHint (least most : UInt64)
  /-- There is no adapter any more. -/
  | refused

namespace Turn

def on {m : Type → Type} [Monad m] {α : Type} (fetch : UInt64 → m (Option α)) :
    Turn → Option Cursor → m (Reply α × Option Cursor)
  | _, none => pure (.refused, none)
  | .next, some c => do
    let (x, c) ← c.next fetch
    pure (.item x, some c)
  | .nextBack, some c => do
    let (x, c) ← c.nextBack fetch
    pure (.item x, some c)
  | .nth n, some c => do
    let (x, c) ← c.nth fetch n
    pure (.item x, some c)
  | .remaining, some c => pure (.number c.remaining, some c)
  | .len, some c => pure (.number c.remaining, some c)
  | .sizeHint, some c => pure (.sizeHint c.remaining c.remaining, some c)
  | .count, some c => pure (.number c.remaining, none)

/-- Whether the turn asks for an item. -/
def Takes : Turn → Prop
  | .next | .nextBack | .nth _ => True
  | _ => False

/-- Whether it asks for the next one from an end. -/
def single : Turn → Bool
  | .next | .nextBack => true
  | _ => false

/-- Whether it only asks how many are left, and leaves the adapter as it is. -/
def Measures : Turn → Prop
  | .remaining | .len | .sizeHint => True
  | _ => False

theorem Measures.not_takes {t : Turn} (measures : t.Measures) : ¬ t.Takes := by
  cases t with
  | next | nextBack | nth n => exact measures.elim
  | remaining | len | sizeHint | count => exact id

end Turn

/-- One turn of a pass. -/
structure Round (e : Element) where
  turn : Turn
  before : Option Cursor
  reply : Reply e.Lent
  calls : List Asked
  after : Option Cursor

structure Pass (e : Element) where
  opening : List Asked
  rounds : List (Round e)

variable {e : Element}

namespace VectorOwner

variable (v : VectorOwner e)

/-- The vector's items by their numbers, with a note of each that is fetched. -/
def notedGet (i : UInt64) : StateT (List Asked) Call (Option e.Lent) := (Asked.get i).noting (v.get i)

/-- The turns of a pass, one after the other. -/
def rounds : Option Cursor → List Turn → Call (List (Round e))
  | _, [] => pure []
  | c, t :: ts => do
    let ((reply, c'), calls) ← (t.on v.notedGet c).run []
    return ⟨t, c, reply, calls, c'⟩ :: (← rounds c' ts)

/-- A new adapter and its turns, with all calls noted. -/
def pass (turns : List Turn) : Call (Pass e) := do
  let (len, opening) ← (Asked.len.noting v.len).run []
  return ⟨opening, ← v.rounds (some (.ofLen len)) turns⟩

/-- The replies of an adapter to the turns that follow. -/
def repliesFrom : Option Cursor → List Turn → Call (List (Reply e.Lent))
  | _, [] => pure []
  | c, t :: ts => do
    let (reply, c) ← t.on v.get c
    return reply :: (← repliesFrom c ts)

/-- The replies of a new adapter. -/
def replies (turns : List Turn) : Call (List (Reply e.Lent)) := do v.repliesFrom (some (← v.cursor)) turns

end VectorOwner

/-! ### Without the notes -/

namespace Asked

variable {α β : Type}

/-- The calls of `c` are those of `d`, and notes beside. -/
def Forgets (c : StateT (List Asked) Call α) (d : Call α) : Prop := ∀ notes, Prod.fst <$> c.run notes = d

theorem forgets_pure (a : α) : Forgets (pure a) (pure a) := fun notes => by simp

theorem forgets_noting (a : Asked) (c : Call α) : Forgets (a.noting c) c := fun notes => by simp [noting]

theorem Forgets.bind {c : StateT (List Asked) Call α} {d : Call α} {k : α → StateT (List Asked) Call β}
    {l : α → Call β} (first : Forgets c d) (next : ∀ a, Forgets (k a) (l a)) : Forgets (c >>= k) (d >>= l) := by
  intro notes
  rw [StateT.run_bind, map_bind, ← first notes, bind_map_left]
  exact bind_congr fun r => next r.1 r.2

end Asked

open Asked

section
variable {α : Type} {noted : UInt64 → StateT (List Asked) Call (Option α)} {fetch : UInt64 → Call (Option α)}
  (forgets : ∀ i, Forgets (noted i) (fetch i))

include forgets

theorem Cursor.forgets_next (c : Cursor) : Forgets (c.next noted) (c.next fetch) := by
  unfold Cursor.next
  split
  · exact forgets_pure _
  · refine (forgets _).bind fun x => ?_
    cases x <;> exact forgets_pure _

theorem Cursor.forgets_nextBack (c : Cursor) : Forgets (c.nextBack noted) (c.nextBack fetch) := by
  unfold Cursor.nextBack
  split
  · exact forgets_pure _
  · refine (forgets _).bind fun x => ?_
    cases x <;> exact forgets_pure _

theorem Turn.forgets_on (t : Turn) (c : Option Cursor) : Forgets (t.on noted c) (t.on fetch c) := by
  cases c with
  | none => cases t <;> exact forgets_pure _
  | some c =>
    cases t with
    | next => exact (c.forgets_next forgets).bind fun _ => forgets_pure _
    | nextBack => exact (c.forgets_nextBack forgets).bind fun _ => forgets_pure _
    | nth n => exact ((c.skip n).forgets_next forgets).bind fun _ => forgets_pure _
    | remaining | len | sizeHint | count => exact forgets_pure _

end

namespace VectorOwner

variable (v : VectorOwner e)

theorem forget_rounds (turns : List Turn) : ∀ c : Option Cursor,
    List.map Round.reply <$> v.rounds c turns = v.repliesFrom c turns := by
  induction turns with
  | nil => intro c; rfl
  | cons t ts ih =>
    intro c
    have notes (i : UInt64) : Forgets (v.notedGet i) (v.get i) := forgets_noting (.get i) (v.get i)
    have here := t.forgets_on notes c []
    simp only [rounds, repliesFrom, ← here, map_bind, bind_map_left, ← ih, map_pure, List.map_cons]

/-- A pass does what it does whether or not its calls are noted. -/
theorem forget_pass (turns : List Turn) :
    (fun p => p.rounds.map Round.reply) <$> v.pass turns = v.replies turns := by
  simp only [pass, replies, cursor, map_bind, map_pure, bind_assoc, pure_bind, ← forget_rounds]
  conv_rhs => rw [← forgets_noting .len v.len [], bind_map_left]
  simp only [map_eq_pure_bind]

end VectorOwner

/-! ### As steps of a walk -/

def Turn.action : Turn → CursorAction
  | .next => .next
  | .nextBack => .nextBack
  | .nth n => .nth n
  | .remaining => .len
  | .len => .len
  | .sizeHint => .sizeHint
  | .count => .count

def Reply.shown : Reply e.Lent → Call CursorAnswer
  | .item x => Walk.shown x
  | .number n => pure (.number n)
  | .sizeHint least most => pure (.sizeHint least most)
  | .refused => pure (.refused .emptySlot)

/-- The cursors with what is left of cursor `i`. -/
def Cursors.leave (cs : Cursors) (i : Nat) : Option Cursor → Cursors
  | some c => cs.put i c
  | none => cs.clear i

theorem Cursors.leave_get? (cs : Cursors) (i : Nat) : cs.leave i (cs.get? i) = cs := by
  have same : cs.cells.setIfInBounds i (cs.get? i) = cs.cells := by
    refine Array.ext_getElem? fun j => ?_
    rw [Array.getElem?_setIfInBounds]
    by_cases here : i = j
    · subst here
      by_cases inside : i < cs.cells.size <;> simp [inside, Slots.get?]
    · rw [if_neg here]
  unfold leave
  cases at_i : cs.get? i <;> rw [at_i] at same <;> exact congrArg Slots.mk same

theorem Turn.on_none {m : Type → Type} [Monad m] {α : Type} (fetch : UInt64 → m (Option α)) (t : Turn) :
    t.on fetch none = pure (.refused, none) := by cases t <;> rfl

/-- A turn is a step of a walk, but for how its reply is shown. -/
theorem step_turn (v : VectorOwner e) (cs : Cursors) (i : Nat) (t : Turn) :
    Walk.step v cs ⟨i, t.action⟩ = do
      let (reply, c) ← t.on v.get (cs.get? i)
      return (← reply.shown, cs.leave i c) := by
  have same := cs.leave_get? i
  cases at_i : cs.get? i with
  | none =>
    rw [at_i] at same
    simp only [Turn.on_none, pure_bind, Reply.shown, same]
    cases t <;> simp only [Turn.action, Walk.step, Walk.move, Walk.peek, Walk.consume, at_i]
  | some c =>
    rw [at_i] at same
    cases t <;> simp only [Turn.action, Turn.on, Walk.step, Walk.move, Walk.peek, Walk.consume, at_i, Reply.shown,
      bind_assoc, pure_bind, same] <;> rfl

/-! ## One call -/

namespace Store

variable {st : Store} (es es' : List Entry)

@[simp] theorem hearing_nil : st.hearing [] = st := by simp [hearing]

@[simp] theorem world_hearing : (st.hearing es).world = st.world := by
  unfold hearing
  split <;> rfl

theorem hearing_hearing : (st.hearing es).hearing es' = st.hearing (es ++ es') := by
  unfold hearing
  by_cases traced : st.settings.traceCalls <;> simp [traced]

theorem run_enter (e : Entry) : (enter e).run st = .ok ((), st.hearing [e]) := by
  unfold hearing
  by_cases traced : st.settings.traceCalls <;> simp [enter, say, traced] <;> rfl

theorem run_items {h : Handle} {xs : List e.Item} (live : st.world.find h = some (.ofList e xs)) :
    (items e h).run st = .ok (xs.toArray, st) := by
  have live : st.heap.find? h = some (.ofList e xs) := live
  simp [items, object, live, Object.ofList]
  rfl

end Store

namespace VectorOwner

variable {v : VectorOwner e} {xs : List e.Item} {st : Store} (live : st.world.find v.handle = some (.ofList e xs))

include live

theorem run_len : v.len.run st = .ok (UInt64.ofNat xs.length, st.hearing [Asked.len.entry e]) := by
  have there : (st.hearing [Asked.len.entry e]).world.find v.handle = some (.ofList e xs) := by
    rwa [Store.world_hearing]
  simp only [len, VectorCalls.len, StateT.run_bind, Store.run_enter, Asked.entry, Asked.op] at there ⊢
  simp only [bind, Except.bind, Store.run_items there]
  rfl

theorem run_get (i : UInt64) : ∃ x, Option.Rel (e.Lends st.world) x xs[i.toNat]? ∧
    (v.get i).run st = .ok (x, st.hearing [(Asked.get i).entry e]) := by
  have there : (st.hearing [(Asked.get i).entry e]).world.find v.handle = some (.ofList e xs) := by
    rwa [Store.world_hearing]
  cases e with
  | text =>
    refine ⟨lentText v.handle xs i, lends_lentText live i, ?_⟩
    simp only [get, VectorCalls.getText, VectorCalls.lend, StateT.run_bind, Store.run_enter, Asked.entry,
      Asked.op] at there ⊢
    simp only [bind, Except.bind, Store.run_items there, lentText, List.size_toArray]
    rfl
  | scalar p =>
    refine ⟨xs[i.toNat]?, option_rel_refl _, ?_⟩
    simp only [get, VectorCalls.getScalar, VectorCalls.copy, StateT.run_bind, Store.run_enter, Asked.entry,
      Asked.op] at there ⊢
    simp only [bind, Except.bind, Store.run_items there, List.getElem?_toArray]
    exact congrArg (fun x => Except.ok (x, _)) (Tagged.toOption_ofOption p.zero xs[i.toNat]?)

end VectorOwner

/-! ## One turn -/

namespace Cursor

/-- Item `i` is still to come, from one end or the other. -/
def Awaits (c : Option Cursor) (i : Nat) : Prop := ∃ c' ∈ c, c'.front.toNat ≤ i ∧ i < c'.back.toNat

/-- How many items are still to come. -/
def left : Option Cursor → Nat
  | none => 0
  | some c => c.remaining.toNat

/-- The cursor stands inside the vector, front before back. -/
def Inside (xs : List e.Item) (c : Option Cursor) : Prop :=
  ∀ c' ∈ c, c'.front.toNat ≤ c'.back.toNat ∧ c'.back.toNat ≤ xs.length

theorem awaits_some {c : Cursor} {i : Nat} : Awaits (some c) i ↔ c.front.toNat ≤ i ∧ i < c.back.toNat := by
  simp [Awaits]

theorem not_awaits_none {i : Nat} : ¬ Awaits none i := by simp [Awaits]

theorem left_some {c : Cursor} (ordered : c.front.toNat ≤ c.back.toNat) :
    left (some c) = c.back.toNat - c.front.toNat :=
  UInt64.toNat_sub_of_le _ _ (UInt64.le_iff_toNat_le.mpr ordered)

/-- Items are awaited as long as some are left. -/
theorem not_awaits_of_left {xs : List e.Item} {c : Option Cursor} (inside : Inside xs c) (none : left c = 0) (i : Nat) :
    ¬ Awaits c i := by
  rintro ⟨c', rfl, front, back⟩
  have := left_some (inside c' rfl).1
  omega

end Cursor

open Cursor

namespace Round

/-- The numbers of the items that the turn fetches. -/
def fetched (r : Round e) : List Nat := r.calls.filterMap Asked.index?

/-- Item `i` is one that the turn leaves out. -/
def Skips (r : Round e) (i : Nat) : Prop :=
  ∃ n c, r.turn = .nth n ∧ r.before = some c ∧ c.front.toNat ≤ i ∧ i < c.front.toNat + n.toNat ∧ i < c.back.toNat

/-- One call for the item that is yielded, by its number, and none where no item is. -/
def Asks (xs : List e.Item) (w : World) (r : Round e) : Prop :=
  match r.reply with
  | .item (some x) => ∃ i y, r.calls = [.get i] ∧ xs[i.toNat]? = some y ∧ e.Lends w x y
  | _ => r.calls = []

/-- What every turn does. -/
structure Fair (xs : List e.Item) (w : World) (r : Round e) : Prop where
  asks : r.Asks xs w
  idle : ¬ r.turn.Takes → r.calls = []
  awaited : ∀ i ∈ r.fetched, Awaits r.before i
  skipped : ∀ i, r.Skips i → Awaits r.before i ∧ i ∉ r.fetched
  onward : ∀ i, Awaits r.after i → Awaits r.before i ∧ i ∉ r.fetched ∧ ¬ r.Skips i
  missed : r.reply = .item none → ∀ i, ¬ Awaits r.after i
  single : r.turn.single →
    (∀ i, Awaits r.before i → Awaits r.after i ∨ i ∈ r.fetched) ∧ left r.after = left r.before - 1
  resting : r.turn.Measures → r.after = r.before
  inside : Inside xs r.after

variable {xs : List e.Item} {w : World} {t : Turn} {c c' : Cursor}

/-- A turn that yields item `i` and leaves it behind. -/
theorem fair_taken {i : UInt64} {x : e.Lent} {y : e.Item} (takes : t.Takes) (at_i : xs[i.toNat]? = some y)
    (lends : e.Lends w x y) (front : c.front.toNat ≤ i.toNat) (back : i.toNat < c.back.toNat)
    (inside : c.back.toNat ≤ xs.length) (ordered : c'.front.toNat ≤ c'.back.toNat)
    (within : c.front.toNat ≤ c'.front.toNat ∧ c'.back.toNat ≤ c.back.toNat)
    (behind : i.toNat < c'.front.toNat ∨ c'.back.toNat ≤ i.toNat)
    (jump : ∀ n, t = .nth n → c.front.toNat + n.toNat ≤ i.toNat ∧ i.toNat < c'.front.toNat)
    (single : t.single → c'.back.toNat - c'.front.toNat + 1 = c.back.toNat - c.front.toNat ∧
      ∀ j, c.front.toNat ≤ j → j < c.back.toNat → j = i.toNat ∨ c'.front.toNat ≤ j ∧ j < c'.back.toNat) :
    Fair xs w ⟨t, some c, .item (some x), [.get i], some c'⟩ where
  asks := ⟨i, y, rfl, at_i, lends⟩
  idle no := absurd takes no
  awaited := by simp [fetched, Asked.index?, awaits_some, front, back]
  skipped := by
    rintro j ⟨n, c₀, rfl, eq, least, most, under⟩
    cases eq
    have := jump n rfl
    refine ⟨awaits_some.mpr ⟨least, under⟩, ?_⟩
    simp only [fetched, Asked.index?, List.filterMap_cons, List.filterMap_nil, List.mem_singleton]
    omega
  onward := by
    intro j awaits
    rw [awaits_some] at awaits
    refine ⟨awaits_some.mpr (by omega), ?_, ?_⟩
    · simp only [fetched, Asked.index?, List.filterMap_cons, List.filterMap_nil, List.mem_singleton]
      omega
    · rintro ⟨n, c₀, rfl, eq, least, most, under⟩
      cases eq
      have := jump n rfl
      omega
  missed no := by cases no
  single is_single := by
    obtain ⟨size, all⟩ := single is_single
    refine ⟨fun j awaits => ?_, ?_⟩
    · rw [awaits_some] at awaits ⊢
      rcases all j awaits.1 awaits.2 with rfl | still
      · exact .inr (by simp [fetched, Asked.index?])
      · exact .inl still
    · rw [left_some ordered, left_some (by omega)]
      omega
  resting measures := absurd takes measures.not_takes
  inside := by
    rintro _ ⟨⟩
    exact ⟨ordered, by omega⟩

/-- A turn that finds nothing, at the end or past all that is left. -/
theorem fair_missed (takes : t.Takes) (inside : c'.front.toNat = c'.back.toNat ∧ c'.back.toNat ≤ xs.length)
    (single : t.single → c.front.toNat = c.back.toNat) :
    Fair xs w ⟨t, some c, .item none, [], some c'⟩ where
  asks := rfl
  idle _ := rfl
  awaited := by simp [fetched]
  skipped := by
    rintro j ⟨n, c₀, rfl, eq, least, most, under⟩
    cases eq
    exact ⟨awaits_some.mpr ⟨least, under⟩, by simp [fetched]⟩
  onward j awaits := by
    rw [awaits_some] at awaits
    omega
  missed _ j awaits := by
    rw [awaits_some] at awaits
    omega
  single is_single := by
    have done := single is_single
    refine ⟨fun j awaits => ?_, ?_⟩
    · rw [awaits_some] at awaits
      omega
    · rw [left_some (by omega), left_some (by omega)]
      omega
  resting measures := absurd takes measures.not_takes
  inside := by
    rintro _ ⟨⟩
    exact ⟨by omega, inside.2⟩

/-- A turn that asks for a number. -/
theorem fair_asked {reply : Reply e.Lent} {c c' : Option Cursor} (number : ∀ x, reply ≠ .item x) (takes : ¬ t.Takes)
    (inside : Inside xs c) (kept : c' = c ∨ c' = none) (resting : t ≠ .count → c' = c) :
    Fair xs w ⟨t, c, reply, [], c'⟩ where
  asks := by
    unfold Asks
    split
    · rename_i eq
      exact absurd eq (number _)
    · rfl
  idle _ := rfl
  awaited := by simp [fetched]
  skipped := by
    rintro j ⟨n, c₀, rfl, -⟩
    exact absurd trivial takes
  onward j awaits := by
    refine ⟨?_, by simp [fetched], ?_⟩
    · rcases kept with rfl | rfl
      · exact awaits
      · exact absurd awaits not_awaits_none
    · rintro ⟨n, c₀, rfl, -⟩
      exact takes trivial
  missed eq := absurd eq (number _)
  single is_single := by
    cases t with
    | next | nextBack => exact absurd trivial takes
    | _ => cases is_single
  resting measures := resting (by rintro rfl; exact measures)
  inside := by
    rcases kept with rfl | rfl
    · exact inside
    · rintro _ ⟨⟩

/-- Without an adapter nothing happens. -/
theorem fair_refused : Fair xs w ⟨t, none, .refused, [], none⟩ where
  asks := rfl
  idle _ := rfl
  awaited := by simp [fetched]
  skipped := by
    rintro j ⟨n, c₀, -, eq, -⟩
    cases eq
  onward _ awaits := absurd awaits not_awaits_none
  missed no := by cases no
  single _ := ⟨fun _ awaits => absurd awaits not_awaits_none, rfl⟩
  resting _ := rfl
  inside := by rintro _ ⟨⟩

end Round

/-! ### The turn's run -/

namespace VectorOwner

variable {v : VectorOwner e} {xs : List e.Item} {st : Store}
  (live : st.world.find v.handle = some (.ofList e xs)) {c : Cursor}

include live

theorem run_notedGet {i : UInt64} (inside : i.toNat < xs.length) : ∃ x y, xs[i.toNat]? = some y ∧
    e.Lends st.world x y ∧
      ((v.notedGet i).run []).run st = .ok ((some x, [.get i]), st.hearing [(Asked.get i).entry e]) := by
  obtain ⟨x, lends, run⟩ := run_get live i
  rw [List.getElem?_eq_getElem inside] at lends
  cases lends with
  | some lends =>
    refine ⟨_, _, List.getElem?_eq_getElem inside, lends, ?_⟩
    simp [notedGet, Asked.noting, run]

theorem run_next (more : c.front.toNat < c.back.toNat) (inside : c.back.toNat ≤ xs.length) :
    ∃ x y, xs[c.front.toNat]? = some y ∧ e.Lends st.world x y ∧
      ((c.next v.notedGet).run []).run st = .ok (((some x, { c with front := c.front + 1 }), [.get c.front]),
        st.hearing [(Asked.get c.front).entry e]) := by
  obtain ⟨x, y, at_front, lends, run⟩ := run_notedGet live (i := c.front) (by omega)
  have more : ¬ c.back ≤ c.front := by rw [UInt64.le_iff_toNat_le]; omega
  exact ⟨x, y, at_front, lends, by simp [Cursor.next, more, run]; rfl⟩

theorem run_nextBack (more : c.front.toNat < c.back.toNat) (inside : c.back.toNat ≤ xs.length) :
    ∃ x y, xs[(c.back - 1).toNat]? = some y ∧ e.Lends st.world x y ∧
      ((c.nextBack v.notedGet).run []).run st = .ok (((some x, { c with back := c.back - 1 }), [.get (c.back - 1)]),
        st.hearing [(Asked.get (c.back - 1)).entry e]) := by
  have more : ¬ c.back ≤ c.front := by rw [UInt64.le_iff_toNat_le]; omega
  obtain ⟨x, y, at_back, lends, run⟩ := run_notedGet live (i := c.back - 1) (by rw [toNat_back_pred more]; omega)
  exact ⟨x, y, at_back, lends, by simp [Cursor.nextBack, more, run]; rfl⟩

omit live in
theorem run_next_done (done : c.back.toNat ≤ c.front.toNat) :
    ((c.next v.notedGet).run []).run st = .ok (((none, c), []), st) := by
  rw [← UInt64.le_iff_toNat_le] at done
  simp [Cursor.next, done]
  rfl

omit live in
theorem run_nextBack_done (done : c.back.toNat ≤ c.front.toNat) :
    ((c.nextBack v.notedGet).run []).run st = .ok (((none, c), []), st) := by
  rw [← UInt64.le_iff_toNat_le] at done
  simp [Cursor.nextBack, done]
  rfl

/-- Every turn of an adapter on the vector runs, and is as it should be. -/
theorem fair_turn (t : Turn) {c : Option Cursor} (inside : Inside xs c) : ∃ reply calls after,
    ((t.on v.notedGet c).run []).run st =
        .ok (((reply, after), calls), st.hearing (calls.map (Asked.entry e))) ∧
      Round.Fair xs st.world ⟨t, c, reply, calls, after⟩ := by
  cases c with
  | none => exact ⟨.refused, [], none, by rw [Turn.on_none]; simp; rfl, Round.fair_refused⟩
  | some c =>
    obtain ⟨ordered, within⟩ := inside c rfl
    cases t with
    | next =>
      by_cases done : c.back.toNat ≤ c.front.toNat
      · refine ⟨.item none, [], some c, ?_, Round.fair_missed trivial (by omega) fun _ => by omega⟩
        simp [Turn.on, run_next_done done]
      · obtain ⟨x, y, at_front, lends, run⟩ := run_next live (Nat.lt_of_not_le done) within
        have front := toNat_front_succ (c := c) (by rwa [UInt64.le_iff_toNat_le])
        refine ⟨.item (some x), [.get c.front], some { c with front := c.front + 1 }, by simp [Turn.on, run], ?_⟩
        exact Round.fair_taken trivial at_front lends (by omega) (by omega) within (by simp only; omega)
          (by simp only; omega) (by simp only; omega) (by rintro n ⟨⟩)
          fun _ => ⟨by simp only; omega, fun j _ _ => by simp only; omega⟩
    | nextBack =>
      by_cases done : c.back.toNat ≤ c.front.toNat
      · refine ⟨.item none, [], some c, ?_, Round.fair_missed trivial (by omega) fun _ => by omega⟩
        simp [Turn.on, run_nextBack_done done]
      · obtain ⟨x, y, at_back, lends, run⟩ := run_nextBack live (Nat.lt_of_not_le done) within
        have back := toNat_back_pred (c := c) (by rwa [UInt64.le_iff_toNat_le])
        refine ⟨.item (some x), [.get (c.back - 1)], some { c with back := c.back - 1 }, by simp [Turn.on, run], ?_⟩
        exact Round.fair_taken trivial at_back lends (by omega) (by omega) within (by simp only; omega)
          (by simp only; omega) (by simp only; omega) (by rintro n ⟨⟩)
          fun _ => ⟨by simp only; omega, fun j _ _ => by simp only; omega⟩
    | nth n =>
      have skipped := toNat_front_skip n c
      have back : (c.skip n).back = c.back := rfl
      by_cases done : (c.skip n).back.toNat ≤ (c.skip n).front.toNat
      · refine ⟨.item none, [], some (c.skip n), ?_,
          Round.fair_missed trivial (by rw [back] at done ⊢; omega) fun no => by cases no⟩
        simp [Turn.on, Cursor.nth, run_next_done done]
      · obtain ⟨x, y, at_front, lends, run⟩ := run_next live (Nat.lt_of_not_le done) within
        have front := toNat_front_succ (c := c.skip n) (by rwa [UInt64.le_iff_toNat_le])
        rw [back] at done
        refine ⟨.item (some x), [.get (c.skip n).front], some { c.skip n with front := (c.skip n).front + 1 },
          by simp [Turn.on, Cursor.nth, run], ?_⟩
        refine Round.fair_taken trivial at_front lends (by omega) (by omega) within (by simp only [back]; omega)
          (by simp only [back]; omega) (by simp only; omega) ?_ fun no => by cases no
        rintro _ ⟨⟩
        simp only
        omega
    | remaining | len | sizeHint =>
      exact ⟨_, [], some c, by simp [Turn.on]; rfl, Round.fair_asked (by rintro x ⟨⟩) id inside (.inl rfl) fun _ => rfl⟩
    | count =>
      exact ⟨_, [], none, by simp [Turn.on]; rfl, Round.fair_asked (by rintro x ⟨⟩) id inside (.inr rfl) fun no =>
        absurd rfl no⟩

end VectorOwner

/-! ## A whole pass -/

/-- Turns as they should be, each begun where the one before it ended. -/
inductive Linked (xs : List e.Item) (w : World) : Option Cursor → List (Round e) → Prop where
  | nil (c : Option Cursor) : Linked xs w c []
  | cons {r : Round e} {rs : List (Round e)} (fair : r.Fair xs w) (rest : Linked xs w r.after rs) :
    Linked xs w r.before (r :: rs)

namespace Linked

variable {xs : List e.Item} {w : World} {c : Option Cursor} {rs : List (Round e)} (linked : Linked xs w c rs)

include linked

theorem fair : ∀ r ∈ rs, r.Fair xs w := by
  induction linked with
  | nil c => intro r mem; cases mem
  | cons fair _ ih => exact List.forall_mem_cons.mpr ⟨fair, ih⟩

/-- What some turn finds awaited was awaited from the start. -/
theorem awaits_of_mem : ∀ r ∈ rs, ∀ i, Awaits r.before i → Awaits c i := by
  induction linked with
  | nil c => intro r mem; cases mem
  | cons fair _ ih =>
    refine List.forall_mem_cons.mpr ⟨fun i awaits => awaits, fun r mem i awaits => ?_⟩
    exact (fair.onward i (ih r mem i awaits)).1

theorem awaited : ∀ i ∈ rs.flatMap Round.fetched, Awaits c i := by
  intro i mem
  obtain ⟨r, mem, fetched⟩ := List.mem_flatMap.mp mem
  exact linked.awaits_of_mem r mem i ((linked.fair r mem).awaited i fetched)

/-- No item is fetched twice. -/
theorem nodup : (rs.flatMap Round.fetched).Nodup := by
  induction linked with
  | nil c => exact List.nodup_nil
  | @cons r rs fair rest ih =>
    have once : r.fetched.Nodup := by
      have asks := fair.asks
      unfold Round.Asks at asks
      split at asks
      · obtain ⟨i, y, calls, -, -⟩ := asks
        simp [Round.fetched, calls, index?]
      · simp [Round.fetched, asks]
    rw [List.flatMap_cons]
    refine List.nodup_append.mpr ⟨once, ih, fun i here j later same => ?_⟩
    subst same
    exact (fair.onward i (rest.awaited i later)).2.1 here

/-- No item that was left out is fetched, before or after. -/
theorem skipped : ∀ r ∈ rs, ∀ i, r.Skips i → i ∉ rs.flatMap Round.fetched := by
  induction linked with
  | nil c => intro r mem; cases mem
  | @cons r rs fair rest ih =>
    have later (i : Nat) (here : r.Skips i) : i ∉ rs.flatMap Round.fetched := fun mem =>
      (fair.onward i (rest.awaited i mem)).2.2 here
    have earlier (s : Round e) (mem : s ∈ rs) (i : Nat) (there : s.Skips i) : i ∉ r.fetched := by
      have awaits := rest.awaits_of_mem s mem i ((rest.fair s mem).skipped i there).1
      exact (fair.onward i awaits).2.1
    refine List.forall_mem_cons.mpr ⟨fun i skips => ?_, fun s mem i skips => ?_⟩ <;>
      rw [List.flatMap_cons, List.mem_append, not_or]
    · exact ⟨(fair.skipped i skips).2, later i skips⟩
    · exact ⟨earlier s mem i skips, ih s mem i skips⟩

/-- Where nothing is awaited, nothing is asked. -/
theorem silent (none : ∀ i, ¬ Awaits c i) : ∀ r ∈ rs, r.calls = [] := by
  intro r mem
  have fair := linked.fair r mem
  have asks := fair.asks
  unfold Round.Asks at asks
  split at asks
  · obtain ⟨i, y, calls, -, -⟩ := asks
    have fetched : i.toNat ∈ r.fetched := by simp [Round.fetched, calls, index?]
    exact absurd (linked.awaits_of_mem r mem _ (fair.awaited _ fetched)) (none _)
  · exact asks

theorem of_append {earlier later : List (Round e)} {r : Round e} (parts : rs = earlier ++ r :: later) :
    Linked xs w r.after later := by
  induction linked generalizing earlier with
  | nil c => simp at parts
  | @cons s rs fair rest ih =>
    cases earlier with
    | nil =>
      obtain ⟨rfl, rfl⟩ := List.cons.inj parts
      exact rest
    | cons s' earlier => exact ih (List.cons.inj parts).2

theorem exhausted {earlier later : List (Round e)} {r : Round e} (parts : rs = earlier ++ r :: later)
    (ended : r.reply = .item none ∨ left r.after = 0) : ∀ r' ∈ later, r'.calls = [] := by
  have fair := linked.fair r (by simp [parts])
  refine (linked.of_append parts).silent ?_
  rcases ended with missed | none
  · exact fair.missed missed
  · exact not_awaits_of_left fair.inside none

/-- Turns that take one item each take all that are awaited, if there are as many turns. -/
theorem all_fetched (singles : ∀ r ∈ rs, r.turn.single ∨ r.turn.Measures)
    (inside : Inside xs c) (enough : left c ≤ rs.countP (·.turn.single)) (i : Nat) (awaits : Awaits c i) :
    i ∈ rs.flatMap Round.fetched := by
  induction linked with
  | nil c => exact absurd awaits (not_awaits_of_left inside (Nat.le_zero.mp enough) i)
  | @cons r rs fair rest ih =>
    have singles' := fun s mem => singles s (List.mem_cons_of_mem r mem)
    rw [List.flatMap_cons, List.mem_append]
    rw [List.countP_cons] at enough
    by_cases single : r.turn.single
    · obtain ⟨all, size⟩ := fair.single single
      rw [if_pos single] at enough
      rcases all i awaits with still | here
      · exact .inr (ih singles' fair.inside (by omega) still)
      · exact .inl here
    · have same := fair.resting ((singles r List.mem_cons_self).resolve_left single)
      rw [if_neg single, ← same] at enough
      exact .inr (ih singles' fair.inside enough (same ▸ awaits))

end Linked

namespace VectorOwner

variable {v : VectorOwner e} {xs : List e.Item}

theorem linked_rounds (turns : List Turn) : ∀ {st : Store} {c : Option Cursor},
    st.world.find v.handle = some (.ofList e xs) → Inside xs c → ∃ rs,
      (v.rounds c turns).run st = .ok (rs, st.hearing ((rs.flatMap Round.calls).map (Asked.entry e))) ∧
        rs.map Round.turn = turns ∧ Linked xs st.world c rs := by
  induction turns with
  | nil => intro st c _ _; exact ⟨[], by simp [rounds]; rfl, rfl, .nil c⟩
  | cons t turns ih =>
    intro st c live inside
    obtain ⟨reply, calls, after, run, fair⟩ := fair_turn live t inside
    have still : (st.hearing (calls.map (Asked.entry e))).world.find v.handle = some (.ofList e xs) := by
      rwa [Store.world_hearing]
    obtain ⟨rs, runs, same, rest⟩ := ih still fair.inside
    rw [Store.hearing_hearing, ← List.map_append] at runs
    rw [Store.world_hearing] at rest
    refine ⟨⟨t, c, reply, calls, after⟩ :: rs, ?_, by rw [List.map_cons, same], .cons fair rest⟩
    rw [rounds, StateT.run_bind, run]
    show (v.rounds after turns >>= fun rs => pure (⟨t, c, reply, calls, after⟩ :: rs)).run (st.hearing _) = _
    rw [StateT.run_bind, runs]
    rfl

end VectorOwner

namespace Pass

def calls (p : Pass e) : List Asked := p.opening ++ p.rounds.flatMap Round.calls

/-- The numbers of all items that were fetched, in the order in which they were. -/
def fetched (p : Pass e) : List Nat := p.calls.filterMap Asked.index?

/-- What the calls of a pass over the items `xs` are. -/
structure Frugal (xs : List e.Item) (w : World) (turns : List Turn) (p : Pass e) : Prop where
  opening : p.opening = [.len]
  order : p.rounds.map Round.turn = turns
  /-- One call for each item that is yielded, with the item's number, and none where no item is. -/
  asks : ∀ r ∈ p.rounds, r.Asks xs w
  idle : ∀ r ∈ p.rounds, ¬ r.turn.Takes → r.calls = []
  distinct : p.fetched.Nodup
  below : ∀ i ∈ p.fetched, i < xs.length
  skipped : ∀ r ∈ p.rounds, ∀ i, r.Skips i → i ∉ p.fetched
  /-- After a turn that found nothing or left nothing there are no calls. -/
  exhausted : ∀ earlier r later, p.rounds = earlier ++ r :: later → (r.reply = .item none ∨ left r.after = 0) →
    ∀ r' ∈ later, r'.calls = []
  /-- Single takes from the two ends, as many as there are items, fetch them all. -/
  full : (∀ t ∈ turns, t.single ∨ t.Measures) →
    xs.length ≤ turns.countP Turn.single → p.fetched.Perm (List.range xs.length)

end Pass

/-- An adapter asks for the length of its vector once and then for each item that it yields, and for no item
    twice. -/
theorem fetched_once (v : VectorOwner e) (xs : List e.Item) (few : xs.length < 2 ^ 64) (st : Store)
    (live : st.heap.find? v.handle = some (.ofList e xs)) (turns : List Turn) :
    ∃ p, (v.pass turns).run st = .ok (p, st.hearing (p.calls.map (Asked.entry e))) ∧
      (v.replies turns).run st = .ok (p.rounds.map Round.reply, st.hearing (p.calls.map (Asked.entry e))) ∧
        p.Frugal xs st.world turns := by
  have live : st.world.find v.handle = some (.ofList e xs) := live
  have still : (st.hearing [Asked.len.entry e]).world.find v.handle = some (.ofList e xs) := by
    rwa [Store.world_hearing]
  have len : (UInt64.ofNat xs.length).toNat = xs.length := Wire.words_count few
  have opened : ((Asked.len.noting v.len).run []).run st =
      .ok ((UInt64.ofNat xs.length, [.len]), st.hearing [Asked.len.entry e]) := by
    simp [Asked.noting, VectorOwner.run_len live]
  have inside : Inside xs (some (.ofLen (UInt64.ofNat xs.length))) := by
    rintro _ ⟨⟩
    simp [Cursor.ofLen, len]
  obtain ⟨rs, run, same, linked⟩ := VectorOwner.linked_rounds turns still inside
  rw [Store.hearing_hearing] at run
  rw [Store.world_hearing] at linked
  have passes : (v.pass turns).run st =
      .ok (⟨[.len], rs⟩, st.hearing ((Pass.calls ⟨[.len], rs⟩).map (Asked.entry e))) := by
    rw [VectorOwner.pass, StateT.run_bind, opened]
    show (v.rounds _ turns >>= fun rs => pure (⟨[.len], rs⟩ : Pass e)).run (st.hearing _) = _
    rw [StateT.run_bind, run]
    rfl
  have fetched : Pass.fetched ⟨[.len], rs⟩ = rs.flatMap Round.fetched := by
    simp only [Pass.fetched, Pass.calls, List.filterMap_append, List.filterMap_flatMap]
    rfl
  have below (i : Nat) (mem : i ∈ rs.flatMap Round.fetched) : i < xs.length := by
    have := awaits_some.mp (linked.awaited i mem)
    simp only [Cursor.ofLen, len] at this
    exact this.2
  refine ⟨⟨[.len], rs⟩, passes, ?_, rfl, same, fun r mem => (linked.fair r mem).asks,
    fun r mem => (linked.fair r mem).idle, fetched ▸ linked.nodup, fetched ▸ below, fetched ▸ linked.skipped,
    fun _ _ _ => linked.exhausted, fun singles enough => ?_⟩
  · rw [← VectorOwner.forget_pass, StateT.run_map, passes]
    rfl
  · subst same
    rw [fetched]
    refine (List.perm_ext_iff_of_nodup linked.nodup List.nodup_range).mpr fun i => ⟨fun mem =>
      List.mem_range.mpr (below i mem), fun mem => ?_⟩
    refine linked.all_fetched (fun r mem => singles _ (List.mem_map_of_mem mem)) inside ?_ i ?_
    · rw [left_some (by simp [Cursor.ofLen]), ← Function.comp_def, ← List.countP_map]
      simpa [Cursor.ofLen, len] using enough
    · simpa [awaits_some, Cursor.ofLen, len] using List.mem_range.mp mem

/-- For example, three takes from both ends, with a look at the length between them, fetch all of three texts. -/
theorem fetched_once_both_ends :
    ∃ p st', (VectorOwner.pass (e := .text) ⟨Heap.next (.empty .growing), true⟩ [.nextBack, .next, .len, .nextBack]).run
        { Store.initial with heap := Heap.allocate (.empty .growing) (.ofList .text ["a", "b", "c"]) } = .ok (p, st') ∧
      p.fetched.Perm [0, 1, 2] := by
  obtain ⟨p, run, -, frugal⟩ := fetched_once (e := .text) ⟨Heap.next (.empty .growing), true⟩ ["a", "b", "c"]
    (by decide) { Store.initial with heap := Heap.allocate (.empty .growing) (.ofList .text ["a", "b", "c"]) }
    (by rw [Heap.find?_allocate, if_pos rfl]) [.nextBack, .next, .len, .nextBack]
  exact ⟨p, _, run, frugal.full (by simp [Turn.single, Turn.Measures]) (by decide)⟩

end Custody
