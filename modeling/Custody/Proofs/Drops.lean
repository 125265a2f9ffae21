/-
  Custody.Proofs.Drops — the ends of owners.

  An owner that ends gives back what it has and leaves the rest as it is. So the end of a session is written down
  in the ledger once for each owner that is left, whatever their order, and what an owner has let go of before
  outlives them all (`Session.close_ends`, `Session.sparesRaw`).
-/
import Custody.Proofs.Ending
import Custody.Proofs.Naming
import Custody.Proofs.Refinement

namespace Custody

/-- Whether what is on the shelf is owned, and dropped at the end. -/
def Shelf.owns : Shelf → Bool
  | texts | owned | vectors => true
  | released | releasedVectors => false

/-! ## One owner after the other -/

/-- How the end of its owner is written down. -/
def Object.ended : Object → Deed
  | .text _ => .freed
  | .vector e xs => .vectorEnded (e.texts xs.size)

/-- The drop of what an owner has in a slot. -/
def Op.endOf : Holder → Op
  | ⟨.vectors, i⟩ => .dropVector i
  | q => .dropOf q

namespace Plain

variable (p : Plain)

/-- What an operation does that takes a value and has its owner end. -/
theorem step_ends {op : Op} {q : Holder} {wire : Wire} (c : q.shelf.Value → Deed)
    (same : ∀ v, c v = (q.shelf.object v).ended)
    (performs : perform wire op = do let v ← q.shelf.plain.take q.slot; did [c v]; pure Answer.done) :
    (p.step wire op).2.deeds = p.deeds ++ ((p.object? q).map Object.ended).toList ∧
      ∀ r, (p.step wire op).2.object? r = if r = q then none else p.object? r := by
  cases at_q : (q.shelf.plain.of p).get? q.slot with
  | none =>
    have dead : p.object? q = none := by simp [object?, at_q]
    have step : p.step wire op = (.refused .emptySlot, p) := by
      rw [Plain.step, performs, StateT.run_bind, run_take_none _ at_q]
      rfl
    rw [step, dead]
    refine ⟨(List.append_nil _).symm, fun r => ?_⟩
    split
    · rename_i e
      rw [e, dead]
    · rfl
  | some v =>
    have step : p.step wire op = (.done, { q.shelf.plain.set p ((q.shelf.plain.of p).clear q.slot) with
        deeds := (q.shelf.plain.set p ((q.shelf.plain.of p).clear q.slot)).deeds ++ [c v] }) := by
      rw [Plain.step, performs, StateT.run_bind, run_take _ at_q]
      rfl
    rw [step, object?_of_get? at_q, same]
    refine ⟨?_, fun r => ?_⟩
    · rw [Shelf.deeds_set]
      rfl
    · rw [object?_deeds, object?_clear_eq]

theorem step_endOf (wire : Wire) {q : Holder} (owns : q.shelf.owns) :
    (p.step wire (.endOf q)).2.deeds = p.deeds ++ ((p.object? q).map Object.ended).toList ∧
      ∀ r, (p.step wire (.endOf q)).2.object? r = if r = q then none else p.object? r := by
  obtain ⟨k, i⟩ := q
  cases k with
  | texts | owned => exact step_ends p (fun _ => .freed) (fun _ => rfl) rfl
  | vectors => exact step_ends p (fun v => .vectorEnded (v.1.texts v.2.length)) (fun _ => rfl) rfl
  | released | releasedVectors => cases owns

/-- Owners that are dropped one after the other are each written down. -/
theorem run_endOf (wire : Wire) (qs : List Holder) : ∀ p : Plain, (∀ q ∈ qs, q.shelf.owns) → qs.Nodup →
    (p.run wire (qs.map Op.endOf)).2.deeds = p.deeds ++ qs.filterMap fun q => (p.object? q).map Object.ended := by
  induction qs with
  | nil => intro p _ _; exact (List.append_nil _).symm
  | cons q qs ih =>
    intro p own single
    obtain ⟨other, single⟩ := List.nodup_cons.mp single
    obtain ⟨deeds, object⟩ := p.step_endOf wire (own q List.mem_cons_self)
    have rest := ih (p.step wire (.endOf q)).2 (fun r mem => own r (List.mem_cons_of_mem _ mem)) single
    have same : qs.filterMap (fun r => ((p.step wire (.endOf q)).2.object? r).map Object.ended) =
        qs.filterMap fun r => (p.object? r).map Object.ended := by
      refine List.filterMap_congr fun r mem => ?_
      rw [object, if_neg]
      rintro rfl
      exact other mem
    rw [deeds, same] at rest
    refine Eq.trans rest ?_
    rw [List.append_assoc, List.filterMap_cons]
    cases p.object? q <;> rfl

end Plain

/-! ## Owners that are left -/

namespace Session

/-- What is left to be dropped. -/
def owners (s : Session) : List Holder :=
  s.texts.entries.map (⟨.texts, ·.1⟩) ++ s.owned.entries.map (⟨.owned, ·.1⟩) ++ s.vectors.entries.map (⟨.vectors, ·.1⟩)

theorem ending_eq (s : Session) : s.ending = s.owners.map Op.endOf := by
  simp only [ending, owners, List.map_append, List.map_map]
  rfl

/-- The slots in use, as holders. -/
theorem mem_holders {α : Type} (t : Slots α) (k : Shelf) (q : Holder) :
    q ∈ t.entries.map (fun e => ⟨k, e.1⟩) ↔ q.shelf = k ∧ t.get? q.slot ≠ none := by
  rw [List.mem_map]
  constructor
  · rintro ⟨⟨i, x⟩, mem, rfl⟩
    exact ⟨rfl, by simp [(t.mem_entries i x).mp mem]⟩
  · rintro ⟨rfl, used⟩
    obtain ⟨x, at_q⟩ := Option.ne_none_iff_exists'.mp used
    exact ⟨(q.slot, x), (t.mem_entries _ _).mpr at_q, rfl⟩

theorem nodup_owners (s : Session) : s.owners.Nodup := by
  have each {α : Type} (k : Shelf) (t : Slots α) : (t.entries.map fun e => (⟨k, e.1⟩ : Holder)).Nodup := by
    have nodup := t.nodup_entries.map (f := Holder.mk k) fun i j same => (Holder.mk.inj same).2
    rwa [List.map_map] at nodup
  have apart {α β : Type} (k k' : Shelf) (ne : k ≠ k') (t : Slots α) (u : Slots β) :
      (t.entries.map fun e => (⟨k, e.1⟩ : Holder)).Disjoint (u.entries.map fun e => (⟨k', e.1⟩ : Holder)) := by
    intro q mem mem'
    exact ne (((mem_holders t k q).mp mem).1.symm.trans ((mem_holders u k' q).mp mem').1)
  rw [owners, List.nodup_append', List.nodup_append']
  refine ⟨⟨each .texts _, each .owned _, apart .texts .owned (by decide) ..⟩, each .vectors _, ?_⟩
  exact List.disjoint_append_left.mpr ⟨apart .texts .vectors (by decide) .., apart .owned .vectors (by decide) ..⟩

theorem mem_owners {s : Session} {p : Plain} (rep : Represents s s.store.world p) (q : Holder) :
    q ∈ s.owners ↔ q.shelf.owns ∧ p.object? q ≠ none := by
  have used : (q.shelf.table.of s).get? q.slot ≠ none ↔ p.object? q ≠ none := by
    cases at_q : (q.shelf.plain.of p).get? q.slot with
    | none => simp [Plain.object?, at_q, rep.absent at_q]
    | some v =>
      obtain ⟨h, entry, -⟩ := rep.value at_q
      simp [Plain.object?, at_q, entry]
  rw [← used, owners, List.mem_append, List.mem_append, mem_holders, mem_holders, mem_holders]
  obtain ⟨k, i⟩ := q
  cases k <;> simp [Shelf.owns, Shelf.table, Table.texts, Table.owned, Table.vectors]

/-! ## What nobody owns -/

/-- The drop of one owner leaves the slots of all other kinds alone. -/
theorem step_endOf_others {s s' : Session} {q : Holder} {y : Answer} (owns : q.shelf.owns)
    (run : s.step (.endOf q) = .ok (y, s')) {k : Shelf} (raw : ¬ k.owns) : k.table.of s' = k.table.of s := by
  have others (k' : Shelf) (op : Nat → Op) (drop : k'.Entry → Call Unit)
      (drops : ∀ i, perform (op i) = (do let x ← k'.table.take i; call (drop x); pure .done)) {i : Nat}
      (run : s.step (op i) = .ok (y, s')) (ne : k ≠ k') : k.table.of s' = k.table.of s := by
    cases at_i : (k'.table.of s).get? i with
    | none =>
      have refused : s.step (op i) = .ok (.refused .emptySlot, s) := by
        simp [step, drops, Table.take, Table.peek, at_i]
        rfl
      rw [refused] at run
      cases run
      rfl
    | some x =>
      obtain ⟨st, -, rfl⟩ := step_drops k' op drop drops at_i run
      rw [Shelf.of_set_ne _ _ ne, Shelf.of_onStore]
  obtain ⟨k', i⟩ := q
  have ne : k ≠ k' := by
    rintro rfl
    exact raw owns
  cases k' with
  | texts => exact others .texts .dropText TextOwner.drop (fun _ => rfl) run ne
  | owned => exact others .owned .dropOwned TextOwner.drop (fun _ => rfl) run ne
  | vectors => exact others .vectors .dropVector (fun v => v.2.drop) (fun _ => rfl) run ne
  | released | releasedVectors => cases owns

/-- What an owner has let go of is there after other owners have ended, with all that is in it. -/
theorem run_endOf_others (qs : List Holder) : ∀ {s : Session} {p : Plain}, Represents s s.store.world p →
    (∀ q ∈ qs, q.shelf.owns) → ∃ ys s', s.run (qs.map Op.endOf) = .ok (ys, s') ∧
      ∀ r, ¬ r.shelf.owns → s'.handle? r = s.handle? r ∧ s'.object? r = s.object? r := by
  induction qs with
  | nil => intro s p _ _; exact ⟨[], s, rfl, fun r _ => ⟨rfl, rfl⟩⟩
  | cons q qs ih =>
    intro s p rep own
    have owns := own q List.mem_cons_self
    obtain ⟨s₁, step, rep₁⟩ := step_represents rep (.endOf q)
    obtain ⟨ys, s', run, kept⟩ := ih rep₁ fun r mem => own r (List.mem_cons_of_mem _ mem)
    refine ⟨(p.step .words (.endOf q)).1 :: ys, s', ?_, fun r raw => ?_⟩
    · simp only [List.map_cons, Session.run, step, run, bind, Except.bind]
    obtain ⟨handle, object⟩ := kept r raw
    have other : r ≠ q := by
      rintro rfl
      exact raw owns
    · constructor
      · rw [handle, handle?, step_endOf_others owns step raw, handle?]
      · rw [object, rep₁.object?_eq, (p.step_endOf .words owns).2, if_neg other, rep.object?_eq]

/-- The end of a session: each owner is written down, and what nobody owns is left. -/
theorem close_ends {s : Session} {p : Plain} (rep : Represents s s.store.world p) : ∃ z, s.close = .ok z ∧
    z.store.ledger = .ofDeeds (p.deeds ++ s.owners.filterMap fun q => (p.object? q).map Object.ended) ∧
      (∀ q, z.object? q = if q.shelf.owns then none else s.object? q) ∧
        ∀ r, ¬ r.shelf.owns → z.handle? r = s.handle? r := by
  have own : ∀ q ∈ s.owners, q.shelf.owns := fun q mem => ((mem_owners rep q).mp mem).1
  obtain ⟨s', run, rep'⟩ := run_represents s.ending rep
  obtain ⟨_, s'', run', kept⟩ := run_endOf_others s.owners rep own
  rw [← ending_eq, run] at run'
  obtain ⟨-, rfl⟩ := Prod.mk.inj (Except.ok.inj run')
  -- the end empties the tables of owners at once, and leaves the others as the drops do
  have held (r : Holder) (raw : ¬ r.shelf.owns) : handle? { s with
      store := s'.store, texts := .empty, owned := .empty, vectors := .empty } r = s.handle? r := by
    obtain ⟨k, i⟩ := r
    cases k with
    | texts | owned | vectors => exact absurd rfl raw
    | released | releasedVectors => rfl
  refine ⟨_, close_of_run run, ?_, fun q => ?_, held⟩
  · rw [← Plain.run_endOf .words s.owners p own s.nodup_owners, ← ending_eq]
    exact rep'.ledger
  · split
    · rename_i owns
      obtain ⟨k, i⟩ := q
      cases k with
      | texts | owned | vectors =>
        simp [object?, handle?, Shelf.table, Table.texts, Table.owned, Table.vectors, Slots.get?_empty]
      | released | releasedVectors => cases owns
    · rename_i raw
      obtain ⟨handle, object⟩ := kept q raw
      rw [← object, object?, held q raw, object?, handle]

/-- What an owner has let go of is nobody's: no drop of others gives it back, nor does the end of the session. -/
def SparesRaw (s : Session) : Prop :=
  ∀ r h o, ¬ r.shelf.owns → s.handle? r = some h → s.store.heap.find? h = some o →
    (∀ qs : List Holder, (∀ q ∈ qs, q.shelf.owns) → ∃ ys s', s.run (qs.map Op.endOf) = .ok (ys, s') ∧
      s'.handle? r = some h ∧ s'.store.heap.find? h = some o) ∧
    ∃ z, s.close = .ok z ∧ z.handle? r = some h ∧ z.store.heap.find? h = some o

theorem sparesRaw {s : Session} {p : Plain} (rep : Represents s s.store.world p) : s.SparesRaw := by
  intro r h o raw held live
  have there : s.object? r = some o := by rw [object?, held]; exact live
  have same {s' : Session} (handle : s'.handle? r = s.handle? r) (object : s'.object? r = s.object? r) :
      s'.handle? r = some h ∧ s'.store.heap.find? h = some o := by
    have held' := handle.trans held
    have there' := object.trans there
    rw [object?, held'] at there'
    exact ⟨held', there'⟩
  constructor
  · intro qs own
    obtain ⟨ys, s', run, kept⟩ := run_endOf_others qs rep own
    exact ⟨ys, s', run, same (kept r raw).1 (kept r raw).2⟩
  · obtain ⟨z, close, -, objects, handles⟩ := close_ends rep
    exact ⟨z, close, same (handles r raw) (by rw [objects, if_neg raw])⟩

end Session

end Custody
