/-
  Custody.Proofs.Ending — the end of a session is the drops of what is left in its slots.

  What a session drops as it ends it could as well have dropped by operations, one for each slot that is
  still in use (`Session.ending`), in the same order and with the same effect on the store
  (`Session.close_of_run`). One such operation is `step_drops`; those of one kind of slots are `run_drops`,
  which have to be about different slots, as each empties its own. So a session that operations led to
  ends without a fault (`Session.closes`), and what holds after every operation holds after the end.
-/
import Custody.Proofs.Faithful

namespace Custody

namespace Session

/-- Drops of what is left: texts first, then plain owners, then vectors, each kind by its slots. -/
def ending (s : Session) : List Op :=
  s.texts.entries.map (.dropText ·.1) ++ s.owned.entries.map (.dropOwned ·.1) ++
    s.vectors.entries.map (.dropVector ·.1)

/-! ## One kind of slots -/

section
variable (k : Shelf) (op : Nat → Op) (drop : k.Entry → Call Unit)
  (drops : ∀ i, perform (op i) = (do let x ← k.table.take i; call (drop x); pure .done))

include drops

theorem step_drops {s s' : Session} {i : Nat} {x : k.Entry} {y : Answer} (at_i : (k.table.of s).get? i = some x)
    (run : s.step (op i) = .ok (y, s')) : ∃ st, (drop x).run s.store = .ok ((), st) ∧
      s' = k.table.set { s with store := st } ((k.table.of s).clear i) := by
  have took : (k.table.take i).run s = .ok (x, k.table.set s ((k.table.of s).clear i)) := by
    simp [Table.take, Table.peek, at_i]
    rfl
  have performed : (perform (op i)).run s =
      (call (drop x)).run (k.table.set s ((k.table.of s).clear i)) >>= fun r => .ok (.done, r.2) := by
    rw [drops, StateT.run_bind, took]
    rfl
  have kept : (k.table.set s ((k.table.of s).clear i)).store = s.store := Shelf.store_set ..
  unfold step at run
  cases ran : (drop x).run s.store with
  | error f =>
    rw [performed, call_error (kept ▸ ran)] at run
    cases run
  | ok r =>
    obtain ⟨⟨⟩, st⟩ := r
    rw [performed, call_ok (kept ▸ ran)] at run
    cases run
    exact ⟨st, rfl, by cases k <;> rfl⟩

theorem run_drops (es : List (Nat × k.Entry)) : ∀ {s s' : Session} {answers : List Answer},
    s.run (es.map (op ·.1)) = .ok (answers, s') → (es.map Prod.fst).Nodup →
      (∀ e ∈ es, (k.table.of s).get? e.1 = some e.2) →
        ∃ st left, ((es.map (drop ·.2)).forM id).run s.store = .ok ((), st) ∧
          s' = k.table.set { s with store := st } left := by
  induction es with
  | nil =>
    intro s s' answers run _ _
    cases run
    refine ⟨s.store, k.table.of s, rfl, ?_⟩
    cases k <;> rfl
  | cons e es ih =>
    intro s s' answers run single there
    obtain ⟨y, s₁, answers, step, rest, rfl⟩ := run_cons run
    obtain ⟨st, first, rfl⟩ := step_drops k op drop drops (there e List.mem_cons_self) step
    have single := List.nodup_cons.mp single
    have there' : ∀ e' ∈ es, (k.table.of (k.table.set { s with store := st }
        ((k.table.of s).clear e.1))).get? e'.1 = some e'.2 := by
      intro e' mem
      have ne : e.1 ≠ e'.1 := fun same => single.1 (same ▸ List.mem_map_of_mem mem)
      rw [Shelf.of_set, Slots.get?_clear, if_neg ne]
      exact there e' (List.mem_cons_of_mem e mem)
    obtain ⟨st', left, later, rfl⟩ := ih rest single.2 there'
    refine ⟨st', left, ?_, by cases k <;> rfl⟩
    rw [Shelf.store_set] at later
    show (drop e.2 >>= fun _ => (es.map (drop ·.2)).forM id).run s.store = _
    rw [StateT.run_bind, first]
    exact later

end

/-! ## The end -/

/-- The end drops by calls what these operations drop, with the same effect on the store. -/
theorem close_of_run {s s' : Session} {answers : List Answer} (run : s.run s.ending = .ok (answers, s')) :
    s.close = .ok { s with store := s'.store, texts := .empty, owned := .empty, vectors := .empty } := by
  obtain ⟨_, s₂, _, run, vectors, -⟩ := run_append _ _ run
  obtain ⟨_, s₁, _, texts, owned, -⟩ := run_append _ _ run
  have there {α : Type} (t : Slots α) : ∀ e ∈ t.entries, t.get? e.1 = some e.2 :=
    fun e mem => (Slots.mem_entries ..).mp mem
  obtain ⟨st₁, _, first, rfl⟩ := run_drops .texts .dropText TextOwner.drop (fun _ => rfl)
    s.texts.entries texts (Slots.nodup_entries _) (there _)
  obtain ⟨st₂, _, second, rfl⟩ := run_drops .owned .dropOwned TextOwner.drop (fun _ => rfl)
    s.owned.entries owned (Slots.nodup_entries _) (there _)
  obtain ⟨st₃, _, third, rfl⟩ := run_drops .vectors .dropVector (fun v => v.2.drop) (fun _ => rfl)
    s.vectors.entries vectors (Slots.nodup_entries _) (there _)
  have all : (forM (s.texts.entries.map (TextOwner.drop ·.2) ++ s.owned.entries.map (TextOwner.drop ·.2) ++
      s.vectors.entries.map (·.2.2.drop)) id : Call Unit).run s.store = .ok ((), st₃) := by
    rw [List.forM_append, List.forM_append, StateT.run_bind, StateT.run_bind]
    show ((((s.texts.entries.map (TextOwner.drop ·.2)).forM id).run s.store >>= _) >>= _) = _
    rw [first]
    show (((s.owned.entries.map (TextOwner.drop ·.2)).forM id).run st₁ >>= _) = _
    rw [show ((s.owned.entries.map (TextOwner.drop ·.2)).forM id).run st₁ = _ from second]
    exact third
  unfold close
  dsimp only
  rw [show (List.forM _ id : Call Unit).run s.store = _ from all]
  rfl

/-- A session that operations led to ends, and without a fault. -/
theorem closes {s : Session} {p : Plain} (rep : Represents s s.store.world p) :
    ∃ answers s', s.run s.ending = .ok (answers, s') ∧
      s.close = .ok { s with store := s'.store, texts := .empty, owned := .empty, vectors := .empty } := by
  obtain ⟨s', run, -⟩ := run_represents s.ending rep
  exact ⟨_, s', run, close_of_run run⟩

end Session

end Custody
