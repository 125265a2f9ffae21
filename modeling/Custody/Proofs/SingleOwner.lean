/-
  Custody.Proofs.SingleOwner — everything that lives has one holder, and nothing is held that does not.

  A session never faults (`run_single_owner`): no handle that it passes across the boundary is stale or
  names another kind of object, wherever the allocator puts things. The reason is an invariant of all
  its states, `Session.SingleOwner`, which a session has when it stands for plain values.
-/
import Custody.Proofs.Faithful

namespace Custody

/-- The allocation that a place is in. -/
def Place.root : Place → Handle
  | .whole h => h
  | .item v _ => v

/-- Whether an object is what the holder of an entry takes it for. -/
def Shelf.Takes : (k : Shelf) → k.Entry → Object → Prop
  | texts, _, o | owned, _, o | released, _, o => ∃ t, o = .text t
  | vectors, v, o => ∃ xs, o = .vector v.1 xs
  | releasedVectors, v, o => ∃ xs, o = .vector v.1 xs

/-- Who holds what, in a state between two operations. -/
structure Session.SingleOwner (s : Session) : Prop where
  /-- Every owner in a slot owns its memory, and what is held, by owners and released handles alike, is
      live and of the right kind. -/
  live : ∀ (k : Shelf) i x, (k.table.of s).get? i = some x →
    ∃ h o, k.held x = some h ∧ s.store.heap.find? h = some o ∧ k.Takes x o
  /-- No handle is held twice. -/
  single : ∀ q q' h, s.handle? q = some h → s.handle? q' = some h → q = q'
  /-- No allocation is without a holder. -/
  kept : ∀ h o, s.store.heap.find? h = some o → ∃ q, s.handle? q = some h
  /-- So a text, on its own or among the items of a vector, has one holder. -/
  texts : ∀ place t, s.store.world.textAt place = some t → ∃! q, s.handle? q = some place.root

theorem Shelf.takes_entry (k : Shelf) (h : Handle) (v : k.Value) : k.Takes (k.entry h v) (k.object v) := by
  cases k <;> exact ⟨_, rfl⟩

theorem World.find_root {w : World} {place : Place} {t : String} (there : w.textAt place = some t) :
    ∃ o, w.find place.root = some o := by
  cases place with
  | whole h => exact ⟨_, find_of_textAt_whole there⟩
  | item v i =>
    obtain ⟨ts, live, -⟩ := find_of_textAt_item there
    exact ⟨_, live⟩

theorem Represents.singleOwner {s : Session} {p : Plain} (rep : Represents s s.store.world p) : s.SingleOwner where
  live k i x at_i := by
    cases value : (k.plain.of p).get? i with
    | none => rw [rep.absent value] at at_i; cases at_i
    | some v =>
      obtain ⟨h, entry, live⟩ := rep.value value
      obtain rfl : k.entry h v = x := Option.some.inj (entry.symm.trans at_i)
      exact ⟨h, k.object v, k.held_entry h v, live, k.takes_entry h v⟩
  single _ _ _ hq hq' := rep.single hq hq'
  kept _ _ live := rep.kept live
  texts place t there := by
    obtain ⟨o, live⟩ := World.find_root there
    obtain ⟨q, hq⟩ := rep.kept live
    exact ⟨q, hq, fun q' hq' => rep.single hq' hq⟩

/-- Operations in any order, over any allocator: no call of the store faults, and at every point each
    live allocation has one holder and each holder a live allocation. -/
theorem run_single_owner (a : Allocator) (settings : Settings) (ops : List Op) :
    ∃ answers s, (Session.startOn (.fresh a settings)).run ops = .ok (answers, s) ∧ s.SingleOwner := by
  obtain ⟨s, run, rep⟩ := start_represents a settings ops
  exact ⟨_, s, run, rep.singleOwner⟩

end Custody
