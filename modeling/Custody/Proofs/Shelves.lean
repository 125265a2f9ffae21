/-
  Custody.Proofs.Shelves — who holds what in a session, and which plain values it stands for.

  The five tables of a session are one family, indexed by `Shelf`; a `Holder` is a slot of one of
  them. `Represents s w p` says that the tables of `s`, over the allocations of world `w`, stand for
  the plain values `p`, with one holder for each allocation and one allocation for each holder. It does
  not look at the store of `s`: in the middle of an operation an allocation may be on its way from one
  holder to the next, and is left out of `w` then.
-/
import Custody.Proofs.Owners
import Custody.Proofs.Plain

namespace Custody

inductive Shelf where
  | texts
  | owned
  | released
  | vectors
  | releasedVectors
  deriving DecidableEq

namespace Shelf

/-- What is in a slot of a session … -/
abbrev Entry : Shelf → Type
  | texts | owned => Owner
  | released => Handle
  | vectors => AnyVector
  | releasedVectors => Element × Handle

/-- … and what it stands for. -/
abbrev Value : Shelf → Type
  | texts | owned | released => String
  | vectors | releasedVectors => AnyItems

def table : (k : Shelf) → Session.Table k.Entry
  | texts => .texts
  | owned => .owned
  | released => .released
  | vectors => .vectors
  | releasedVectors => .releasedVectors

def plain : (k : Shelf) → Plain.Table k.Value
  | texts => .texts
  | owned => .owned
  | released => .released
  | vectors => .vectors
  | releasedVectors => .releasedVectors

/-- The entry by which the allocation of a value is held. -/
def entry : (k : Shelf) → Handle → k.Value → k.Entry
  | texts, h, _ | owned, h, _ => .adopt h
  | released, h, _ => h
  | vectors, h, xs => ⟨xs.1, .adopt xs.1 h⟩
  | releasedVectors, h, xs => (xs.1, h)

/-- The handle that an entry has to give back: none if it is an owner that does not own. -/
def held : (k : Shelf) → k.Entry → Option Handle
  | texts, o | owned, o => if o.ownsMemory then some o.handle else none
  | released, h => some h
  | vectors, v => if v.2.ownsMemory then some v.2.handle else none
  | releasedVectors, v => some v.2

/-- What the allocation of a value holds. -/
def object : (k : Shelf) → k.Value → Object
  | texts, t | owned, t | released, t => .text t
  | vectors, xs | releasedVectors, xs => .ofList xs.1 xs.2

theorem held_entry (k : Shelf) (h : Handle) (v : k.Value) : k.held (k.entry h v) = some h := by
  cases k <;> rfl

theorem object_inj {k : Shelf} {v v' : k.Value} (same : k.object v = k.object v') : v = v' := by
  cases k with
  | texts | owned | released => exact Object.text.inj same
  | vectors | releasedVectors =>
    obtain ⟨e, xs⟩ := v
    obtain ⟨e', xs'⟩ := v'
    obtain ⟨rfl, eq⟩ := Object.vector.inj same
    obtain rfl : xs = xs' := by simpa using eq
    rfl

section
variable (k : Shelf) (s : Session) (t : Slots k.Entry) (p : Plain) (u : Slots k.Value)

theorem of_set : k.table.of (k.table.set s t) = t := by cases k <;> rfl
theorem plain_of_set : k.plain.of (k.plain.set p u) = u := by cases k <;> rfl
theorem of_onStore (st : Store) : k.table.of { s with store := st } = k.table.of s := by cases k <;> rfl
theorem plain_of_deeds (ds : List Deed) : k.plain.of { p with deeds := ds } = k.plain.of p := by
  cases k <;> rfl
theorem plain_of_noted (settings : Settings) (mark : Ledger) :
    k.plain.of { p with settings, mark } = k.plain.of p := by
  cases k <;> rfl
theorem of_mark (mark : Ledger) : k.table.of { s with mark } = k.table.of s := by cases k <;> rfl
theorem store_set : (k.table.set s t).store = s.store := by cases k <;> rfl
theorem mark_set : (k.table.set s t).mark = s.mark := by cases k <;> rfl
theorem plain_mark_set : (k.plain.set p u).mark = p.mark := by cases k <;> rfl
theorem deeds_set : (k.plain.set p u).deeds = p.deeds := by cases k <;> rfl
theorem settings_set : (k.plain.set p u).settings = p.settings := by cases k <;> rfl

variable {k} {k' : Shelf} (ne : k' ≠ k)

include ne

theorem of_set_ne : k'.table.of (k.table.set s t) = k'.table.of s := by
  cases k <;> cases k' <;> first | rfl | exact absurd rfl ne

theorem plain_of_set_ne : k'.plain.of (k.plain.set p u) = k'.plain.of p := by
  cases k <;> cases k' <;> first | rfl | exact absurd rfl ne

end

end Shelf

/-! ## Holders -/

/-- A slot of one of the tables. -/
structure Holder where
  shelf : Shelf
  slot : Nat
  deriving DecidableEq

/-- The handle that a slot has to give back. -/
def Session.handle? (s : Session) (q : Holder) : Option Handle :=
  ((q.shelf.table.of s).get? q.slot).bind q.shelf.held

/-- What the allocation behind a slot holds. -/
def Plain.object? (p : Plain) (q : Holder) : Option Object :=
  ((q.shelf.plain.of p).get? q.slot).map q.shelf.object

namespace Session

variable (s : Session) (k : Shelf)

theorem handle?_add (x : k.Entry) (q : Holder) :
    (k.table.set s ((k.table.of s).add x)).handle? q =
      if q = ⟨k, (k.table.of s).next⟩ then k.held x else s.handle? q := by
  obtain ⟨k', i⟩ := q
  by_cases e : k' = k
  · subst e
    simp only [handle?, Shelf.of_set, Slots.get?_add, Holder.mk.injEq, true_and]
    split <;> rfl
  · simp [handle?, Shelf.of_set_ne s _ e, e]

theorem handle?_clear (i : Nat) (q : Holder) :
    (k.table.set s ((k.table.of s).clear i)).handle? q = if q = ⟨k, i⟩ then none else s.handle? q := by
  obtain ⟨k', j⟩ := q
  by_cases e : k' = k
  · subst e
    simp only [handle?, Shelf.of_set, Slots.get?_clear, Holder.mk.injEq, true_and, eq_comm (a := i)]
    split <;> rfl
  · simp [handle?, Shelf.of_set_ne s _ e, e]

theorem handle?_of_entry {i : Nat} {h : Handle} {v : k.Value}
    (at_i : (k.table.of s).get? i = some (k.entry h v)) : s.handle? ⟨k, i⟩ = some h := by
  simp [handle?, at_i, Shelf.held_entry]

end Session

namespace Plain

variable (p : Plain) (k : Shelf) {q : Holder}

theorem object?_deeds (ds : List Deed) : ({ p with deeds := ds } : Plain).object? q = p.object? q := by
  rw [object?, Shelf.plain_of_deeds, object?]

theorem object?_add {o : Object} (v : k.Value) (there : p.object? q = some o) :
    (k.plain.set p ((k.plain.of p).add v)).object? q = some o := by
  obtain ⟨k', i⟩ := q
  by_cases e : k' = k
  · subst e
    have old : i ≠ (k'.plain.of p).next := by
      intro last
      rw [object?, last, Slots.get?_next] at there
      cases there
    rw [object?, Shelf.plain_of_set, Slots.get?_add, if_neg old]
    exact there
  · rw [object?, Shelf.plain_of_set_ne p _ e]
    exact there

variable {i : Nat} (other : q ≠ ⟨k, i⟩)

include other

theorem object?_clear : (k.plain.set p ((k.plain.of p).clear i)).object? q = p.object? q := by
  obtain ⟨k', j⟩ := q
  by_cases e : k' = k
  · subst e
    have ne : i ≠ j := fun e => other (by rw [e])
    rw [object?, Shelf.plain_of_set, Slots.get?_clear, if_neg ne, object?]
  · rw [object?, Shelf.plain_of_set_ne p _ e, object?]

theorem object?_put (v : k.Value) : (k.plain.set p ((k.plain.of p).put i v)).object? q = p.object? q := by
  obtain ⟨k', j⟩ := q
  by_cases e : k' = k
  · subst e
    have ne : ¬ (i = j ∧ i < (k'.plain.of p).next) := fun e => other (by rw [e.1])
    rw [object?, Shelf.plain_of_set, Slots.get?_put, if_neg ne, object?]
  · rw [object?, Shelf.plain_of_set_ne p _ e, object?]

end Plain

/-! ## What a session stands for -/

/-- The entry holds the allocation of the value. -/
def Shelf.Stands (k : Shelf) (w : World) (x : k.Entry) (v : k.Value) : Prop :=
  ∃ h, x = k.entry h v ∧ w.find h = some (k.object v)

structure Represents (s : Session) (w : World) (p : Plain) : Prop where
  next : ∀ k : Shelf, (k.table.of s).next = (k.plain.of p).next
  entries : ∀ (k : Shelf) i, Option.Rel (k.Stands w) ((k.table.of s).get? i) ((k.plain.of p).get? i)
  /-- No allocation has two holders … -/
  single : ∀ {q q' h}, s.handle? q = some h → s.handle? q' = some h → q = q'
  /-- … and none is without. -/
  kept : ∀ {h o}, w.find h = some o → ∃ q, s.handle? q = some h
  ledger : w.ledger = .ofDeeds p.deeds
  settings : w.settings = p.settings
  mark : s.mark = p.mark

namespace Represents

variable {s : Session} {w : World} {p : Plain} (rep : Represents s w p)

include rep

/-- A value is held by its entry, in a live allocation. -/
theorem value {k : Shelf} {i : Nat} {v : k.Value} (at_i : (k.plain.of p).get? i = some v) :
    ∃ h, (k.table.of s).get? i = some (k.entry h v) ∧ w.find h = some (k.object v) := by
  have stands := rep.entries k i
  rw [at_i] at stands
  generalize (k.table.of s).get? i = x at stands
  cases stands with
  | some stands =>
    obtain ⟨h, rfl, live⟩ := stands
    exact ⟨h, rfl, live⟩

theorem absent {k : Shelf} {i : Nat} (at_i : (k.plain.of p).get? i = none) : (k.table.of s).get? i = none := by
  have stands := rep.entries k i
  rw [at_i] at stands
  generalize (k.table.of s).get? i = x at stands
  cases stands with
  | none => rfl

theorem handle?_of_value {k : Shelf} {i : Nat} {v : k.Value} (at_i : (k.plain.of p).get? i = some v) :
    ∃ h, s.handle? ⟨k, i⟩ = some h ∧ w.find h = some (k.object v) := by
  obtain ⟨h, entry, live⟩ := rep.value at_i
  exact ⟨h, s.handle?_of_entry k entry, live⟩

/-- What is held is live. -/
theorem live {q : Holder} {h : Handle} (hq : s.handle? q = some h) :
    ∃ v, (q.shelf.plain.of p).get? q.slot = some v ∧ w.find h = some (q.shelf.object v) := by
  cases at_i : (q.shelf.plain.of p).get? q.slot with
  | none =>
    rw [Session.handle?, rep.absent at_i] at hq
    cases hq
  | some v =>
    obtain ⟨h', hq', live⟩ := rep.handle?_of_value at_i
    obtain rfl : h' = h := Option.some.inj (hq'.symm.trans hq)
    exact ⟨v, rfl, live⟩

theorem unheld {h : Handle} (fresh : w.find h = none) (q : Holder) : s.handle? q ≠ some h := by
  intro hq
  obtain ⟨v, -, live⟩ := rep.live hq
  rw [fresh] at live
  cases live

/-- Other entries stand for what they stood for, as long as their allocations are left alone. -/
theorem stands_elsewhere {w' : World} {k : Shelf} {i : Nat}
    (alone : ∀ h, s.handle? ⟨k, i⟩ = some h → w'.find h = w.find h) :
    Option.Rel (k.Stands w') ((k.table.of s).get? i) ((k.plain.of p).get? i) := by
  cases at_i : (k.plain.of p).get? i with
  | none => rw [rep.absent at_i]; exact .none
  | some v =>
    obtain ⟨h, entry, live⟩ := rep.value at_i
    rw [entry]
    exact .some ⟨h, rfl, (alone h (s.handle?_of_entry k entry)).trans live⟩

theorem onStore (st : Store) : Represents { s with store := st } w p where
  next k := by rw [Shelf.of_onStore]; exact rep.next k
  entries k i := by rw [Shelf.of_onStore]; exact rep.entries k i
  single := by simpa only [Session.handle?, Shelf.of_onStore] using @rep.single
  kept := by simpa only [Session.handle?, Shelf.of_onStore] using @rep.kept
  ledger := rep.ledger
  settings := rep.settings
  mark := rep.mark

/-- What is done shows in the ledger. -/
theorem did (ds : List Deed) :
    Represents s (w.counts (ds.map Deed.event)) { p with deeds := p.deeds ++ ds } where
  next k := by rw [Shelf.plain_of_deeds]; exact rep.next k
  entries k i := by rw [Shelf.plain_of_deeds]; exact rep.entries k i
  single := rep.single
  kept := rep.kept
  ledger := by
    show (ds.map Deed.event).foldl Ledger.record w.ledger = _
    rw [rep.ledger, Ledger.ofDeeds, Ledger.ofDeeds, List.map_append, List.foldl_append]
  settings := rep.settings
  mark := rep.mark

theorem configured (settings : Settings) :
    Represents s { w with settings } { p with settings } where
  next k := by rw [Shelf.plain_of_noted]; exact rep.next k
  entries k i := by rw [Shelf.plain_of_noted]; exact rep.entries k i
  single := rep.single
  kept := rep.kept
  ledger := rep.ledger
  settings := rfl
  mark := rep.mark

theorem reset : Represents s { w with ledger := .empty } { p with deeds := [] } where
  next k := by rw [Shelf.plain_of_deeds]; exact rep.next k
  entries k i := by rw [Shelf.plain_of_deeds]; exact rep.entries k i
  single := rep.single
  kept := rep.kept
  ledger := rfl
  settings := rep.settings
  mark := rep.mark

theorem marked (mark : Ledger) : Represents { s with mark } w { p with mark } where
  next k := by rw [Shelf.of_mark, Shelf.plain_of_noted]; exact rep.next k
  entries k i := by rw [Shelf.of_mark, Shelf.plain_of_noted]; exact rep.entries k i
  single := by simpa only [Session.handle?, Shelf.of_mark] using @rep.single
  kept := by simpa only [Session.handle?, Shelf.of_mark] using @rep.kept
  ledger := rep.ledger
  settings := rep.settings
  mark := rfl

/-- A new allocation gets a holder of its own. -/
theorem add (k : Shelf) {h : Handle} (fresh : w.find h = none) (v : k.Value) :
    Represents (k.table.set s ((k.table.of s).add (k.entry h v))) (w.put h (k.object v))
      (k.plain.set p ((k.plain.of p).add v)) := by
  have unheld := rep.unheld fresh
  refine ⟨fun k' => ?next, fun k' i => ?entries, ?single, ?kept, ?ledger, ?settings, ?mark⟩
  case next =>
    by_cases e : k' = k
    · subst e
      rw [Shelf.of_set, Shelf.plain_of_set]
      have := rep.next k'
      simp only [Slots.next, Slots.add, Array.size_push] at this ⊢
      omega
    · rw [Shelf.of_set_ne s _ e, Shelf.plain_of_set_ne p _ e]
      exact rep.next k'
  case entries =>
    have old : Option.Rel (k'.Stands (w.put h (k.object v))) ((k'.table.of s).get? i) ((k'.plain.of p).get? i) := by
      refine rep.stands_elsewhere fun h' hq => World.find_put_ne ?_
      intro e
      exact unheld _ (e ▸ hq)
    by_cases e : k' = k
    · subst e
      rw [Shelf.of_set, Shelf.plain_of_set, Slots.get?_add, Slots.get?_add, rep.next k']
      split
      · exact .some ⟨h, rfl, World.find_put_self ..⟩
      · exact old
    · rw [Shelf.of_set_ne s _ e, Shelf.plain_of_set_ne p _ e]
      exact old
  case single =>
    intro q q' h' hq hq'
    rw [Session.handle?_add, Shelf.held_entry] at hq hq'
    split at hq <;> split at hq'
    · rename_i e e'
      rw [e, e']
    · cases hq
      exact absurd hq' (unheld _)
    · cases hq'
      exact absurd hq (unheld _)
    · exact rep.single hq hq'
  case kept =>
    intro h' o live
    simp only [Session.handle?_add, Shelf.held_entry]
    by_cases e : h' = h
    · exact ⟨⟨k, (k.table.of s).next⟩, by rw [if_pos rfl, e]⟩
    · rw [World.find_put_ne e] at live
      obtain ⟨q, hq⟩ := rep.kept live
      refine ⟨q, ?_⟩
      have ne : q ≠ ⟨k, (k.table.of s).next⟩ := by
        intro last
        rw [last] at hq
        simp [Session.handle?, Slots.get?_next] at hq
      rw [if_neg ne, hq]
  case ledger =>
    rw [Shelf.deeds_set]
    exact rep.ledger
  case settings =>
    rw [Shelf.settings_set]
    exact rep.settings
  case mark =>
    rw [Shelf.mark_set, Shelf.plain_mark_set]
    exact rep.mark

/-- An entry and its allocation go together. -/
theorem remove {k : Shelf} {i : Nat} {h : Handle} {v : k.Value}
    (at_i : (k.table.of s).get? i = some (k.entry h v)) :
    Represents (k.table.set s ((k.table.of s).clear i)) (w.drop h) (k.plain.set p ((k.plain.of p).clear i)) := by
  have mine : s.handle? ⟨k, i⟩ = some h := s.handle?_of_entry k at_i
  refine ⟨fun k' => ?next, fun k' j => ?entries, ?single, ?kept, ?ledger, ?settings, ?mark⟩
  case next =>
    by_cases e : k' = k
    · subst e
      rw [Shelf.of_set, Shelf.plain_of_set]
      simpa [Slots.next, Slots.clear] using rep.next k'
    · rw [Shelf.of_set_ne s _ e, Shelf.plain_of_set_ne p _ e]
      exact rep.next k'
  case entries =>
    have old : (⟨k', j⟩ : Holder) ≠ ⟨k, i⟩ →
        Option.Rel (k'.Stands (w.drop h)) ((k'.table.of s).get? j) ((k'.plain.of p).get? j) := by
      refine fun ne => rep.stands_elsewhere fun h' hq => World.find_drop_ne ?_
      intro e
      exact ne (rep.single hq (e ▸ mine))
    by_cases e : k' = k
    · subst e
      rw [Shelf.of_set, Shelf.plain_of_set, Slots.get?_clear, Slots.get?_clear]
      split
      · exact .none
      · rename_i ne
        exact old fun e => ne (Holder.mk.inj e).2.symm
    · rw [Shelf.of_set_ne s _ e, Shelf.plain_of_set_ne p _ e]
      exact old fun e' => e (Holder.mk.inj e').1
  case single =>
    intro q q' h' hq hq'
    rw [Session.handle?_clear] at hq hq'
    split at hq
    · cases hq
    · split at hq'
      · cases hq'
      · exact rep.single hq hq'
  case kept =>
    intro h' o live
    have ne : h' ≠ h := by
      intro e
      rw [e, World.find_drop_self] at live
      cases live
    rw [World.find_drop_ne ne] at live
    obtain ⟨q, hq⟩ := rep.kept live
    refine ⟨q, ?_⟩
    have other : q ≠ ⟨k, i⟩ := by
      intro e
      rw [e, mine] at hq
      exact ne (Option.some.inj hq).symm
    rw [Session.handle?_clear, if_neg other, hq]
  case ledger =>
    rw [Shelf.deeds_set]
    exact rep.ledger
  case settings =>
    rw [Shelf.settings_set]
    exact rep.settings
  case mark =>
    rw [Shelf.mark_set, Shelf.plain_mark_set]
    exact rep.mark

/-- A change in an allocation is a change of the one value that it is held for. -/
theorem write {k : Shelf} {i : Nat} {h : Handle} {v : k.Value}
    (at_i : (k.table.of s).get? i = some (k.entry h v)) (v' : k.Value) (like : k.entry h v' = k.entry h v) :
    Represents s (w.put h (k.object v')) (k.plain.set p ((k.plain.of p).put i v')) := by
  have mine : s.handle? ⟨k, i⟩ = some h := s.handle?_of_entry k at_i
  have old : ∀ k' j, (⟨k', j⟩ : Holder) ≠ ⟨k, i⟩ →
      Option.Rel (k'.Stands (w.put h (k.object v'))) ((k'.table.of s).get? j) ((k'.plain.of p).get? j) := by
    refine fun k' j ne => rep.stands_elsewhere fun h' hq => World.find_put_ne ?_
    intro e
    exact ne (rep.single hq (e ▸ mine))
  refine ⟨fun k' => ?next, fun k' j => ?entries, rep.single, ?kept, ?ledger, ?settings, ?mark⟩
  case next =>
    by_cases e : k' = k
    · subst e
      rw [Shelf.plain_of_set]
      simpa [Slots.next, Slots.put] using rep.next k'
    · rw [Shelf.plain_of_set_ne p _ e]
      exact rep.next k'
  case entries =>
    by_cases e : k' = k
    · subst e
      rw [Shelf.plain_of_set, Slots.get?_put, ← rep.next k']
      split
      · rename_i here
        rw [← here.1, at_i, ← like]
        exact .some ⟨h, rfl, World.find_put_self ..⟩
      · rename_i there
        refine old k' j fun e => there ⟨(Holder.mk.inj e).2.symm, Slots.lt_next_of_get? at_i⟩
    · rw [Shelf.plain_of_set_ne p _ e]
      exact old k' j fun e' => e (Holder.mk.inj e').1
  case kept =>
    intro h' o live
    by_cases e : h' = h
    · exact ⟨⟨k, i⟩, by rw [mine, e]⟩
    · rw [World.find_put_ne e] at live
      exact rep.kept live
  case ledger =>
    rw [Shelf.deeds_set]
    exact rep.ledger
  case settings =>
    rw [Shelf.settings_set]
    exact rep.settings
  case mark =>
    rw [Shelf.plain_mark_set]
    exact rep.mark

end Represents

/-- Nothing is held in a fresh session, and nothing has to be. -/
theorem represents_start (a : Allocator) (settings : Settings) :
    Represents (.startOn (.fresh a settings)) (Store.fresh a settings).world { Plain.start with settings } where
  next k := by cases k <;> rfl
  entries k i := by cases k <;> exact .none
  single := by
    intro q q' h hq
    obtain ⟨k, i⟩ := q
    cases k <;> cases hq
  kept := by
    intro h o live
    cases (Heap.find?_empty a h).symm.trans live
  ledger := rfl
  settings := rfl
  mark := rfl

end Custody
