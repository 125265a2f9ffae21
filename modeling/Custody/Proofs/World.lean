/-
  Custody.Proofs.World — calls by what they do to the store, the log left out.

  A `World` is a store as its callers can tell it apart: which object each handle names, the ledger
  and the settings. `wp c Q w` says that call `c`, begun in any store that looks like `w`, faults
  nowhere and ends with a result and a world that satisfy `Q`. Of the allocator it is only used that a
  new handle named nothing before (`wp_allocate`).
-/
import Custody.Store

namespace Custody

structure World where
  find : Handle → Option Object
  ledger : Ledger
  settings : Settings

def Store.world (st : Store) : World := ⟨st.heap.find?, st.ledger, st.settings⟩

namespace World

/-- The world in which `h` names `o`. -/
def put (w : World) (h : Handle) (o : Object) : World :=
  { w with find := fun g => if g = h then some o else w.find g }

/-- The world in which `h` names nothing. -/
def drop (w : World) (h : Handle) : World :=
  { w with find := fun g => if g = h then none else w.find g }

/-- The world with some events more in its ledger. -/
def counts (w : World) (es : List Event) : World := { w with ledger := es.foldl Ledger.record w.ledger }

variable (w : World) (h g : Handle) (o o' : Object) (es es' : List Event)

@[simp] theorem find_put_self : (w.put h o).find h = some o := by simp [put]
@[simp] theorem find_drop_self : (w.drop h).find h = none := by simp [drop]
@[simp] theorem find_counts : (w.counts es).find = w.find := rfl
@[simp] theorem find_put_counts : ((w.put h o).counts es).find h = some o := find_put_self ..
@[simp] theorem counts_nil : w.counts [] = w := rfl

theorem put_counts : (w.counts es).put h o = (w.put h o).counts es := rfl
theorem drop_counts : (w.counts es).drop h = (w.drop h).counts es := rfl

theorem counts_counts : (w.counts es).counts es' = w.counts (es ++ es') := by
  simp [counts, List.foldl_append]

variable {w h g o o'}

theorem ext_find {w w' : World} (find : ∀ h, w.find h = w'.find h) (ledger : w.ledger = w'.ledger)
    (settings : w.settings = w'.settings) : w = w' := by
  obtain ⟨f, l, s⟩ := w
  obtain ⟨f', l', s'⟩ := w'
  obtain rfl : f = f' := funext find
  cases ledger; cases settings; rfl

/-- What is live is not what is new. -/
theorem ne_of_live (live : w.find h = some o) (fresh : w.find g = none) : h ≠ g := by
  intro e
  rw [e, fresh] at live
  cases live

@[simp] theorem find_put_ne (ne : g ≠ h) : (w.put h o).find g = w.find g := by simp [put, ne]
@[simp] theorem find_drop_ne (ne : g ≠ h) : (w.drop h).find g = w.find g := by simp [drop, ne]

@[simp] theorem put_put : (w.put h o).put h o' = w.put h o' :=
  ext_find (fun g => by by_cases e : g = h <;> simp [put, e]) rfl rfl

theorem put_self (live : w.find h = some o) : w.put h o = w :=
  ext_find (fun g => by by_cases e : g = h <;> simp [put, e, live]) rfl rfl

theorem drop_self (dead : w.find h = none) : w.drop h = w :=
  ext_find (fun g => by by_cases e : g = h <;> simp [drop, e, dead]) rfl rfl

@[simp] theorem drop_put : (w.put h o).drop h = w.drop h :=
  ext_find (fun g => by by_cases e : g = h <;> simp [put, drop, e]) rfl rfl

@[simp] theorem put_drop : (w.drop h).put h o = w.put h o :=
  ext_find (fun g => by by_cases e : g = h <;> simp [put, drop, e]) rfl rfl

/-- What was new and is gone leaves its events behind. -/
theorem drop_put_counts (fresh : w.find h = none) : ((w.put h o).counts es).drop h = w.counts es := by
  rw [drop_counts, drop_put, drop_self fresh]

end World

/-! ## Calls -/

/-- From a store that looks like `w`, the call ends without a fault, as `Q` says. -/
def wp {α : Type} (c : Call α) (Q : α → World → Prop) (w : World) : Prop :=
  ∀ st : Store, st.world = w → ∃ a st', c.run st = .ok (a, st') ∧ Q a st'.world

section
variable {α β : Type} {w : World}

theorem wp_pure {a : α} {Q : α → World → Prop} (post : Q a w) : wp (pure a) Q w := by
  intro st hst
  subst hst
  exact ⟨a, st, rfl, post⟩

theorem wp_bind {c : Call α} {k : α → Call β} {Q : β → World → Prop}
    (first : wp c (fun a w => wp (k a) Q w) w) : wp (c >>= k) Q w := by
  intro st hst
  obtain ⟨a, st', hrun, hk⟩ := first st hst
  obtain ⟨b, st'', hrun', post⟩ := hk st' rfl
  refine ⟨b, st'', ?_, post⟩
  simp only [StateT.run_bind, hrun]
  exact hrun'

theorem wp_mono {c : Call α} {P Q : α → World → Prop} (h : wp c P w) (le : ∀ a w, P a w → Q a w) :
    wp c Q w := by
  intro st hst
  obtain ⟨a, st', hrun, post⟩ := h st hst
  exact ⟨a, st', hrun, le a _ post⟩

theorem wp_map {c : Call α} {f : α → β} {Q : β → World → Prop} (h : wp c (fun a w => Q (f a) w) w) :
    wp (f <$> c) Q w := by
  rw [map_eq_pure_bind]
  exact wp_bind (wp_mono h fun _ _ post => wp_pure post)

theorem wp_discard {c : Call α} {Q : Unit → World → Prop} (h : wp c (fun _ w => Q () w) w) :
    wp (discard c) Q w := wp_map h

/-- Reading the store shows one that looks like the world. -/
theorem wp_get {Q : Store → World → Prop} (post : ∀ st : Store, st.world = w → Q st w) :
    wp (get : Call Store) Q w := by
  intro st hst
  subst hst
  exact ⟨st, st, rfl, post st rfl⟩

end

namespace Store

variable {w : World}

theorem wp_say {r : LogRecord} {Q : Unit → World → Prop} (post : Q () w) : wp (say r) Q w := by
  intro st hst
  subst hst
  exact ⟨(), _, rfl, post⟩

theorem wp_enter {e : Entry} {Q : Unit → World → Prop} (post : Q () w) : wp (enter e) Q w := by
  refine wp_bind (wp_get fun st _ => ?_)
  split
  · exact wp_say post
  · exact wp_pure post

theorem wp_configure {settings : Settings} {Q : Unit → World → Prop}
    (post : Q () { w with settings }) : wp (configure settings) Q w := by
  refine wp_bind (wp_say ?_)
  intro st hst
  subst hst
  exact ⟨(), _, rfl, post⟩

theorem wp_count {e : Event} {Q : Unit → World → Prop} (post : Q () (w.counts [e])) :
    wp (count e) Q w := by
  intro st hst
  subst hst
  exact ⟨(), _, rfl, post⟩

/-- Whatever handle an allocation gets, it named nothing before. -/
theorem wp_allocate {o : Object} {Q : Handle → World → Prop}
    (post : ∀ h, w.find h = none → Q h (w.put h o)) : wp (allocate o) Q w := by
  intro st hst
  subst hst
  refine ⟨st.heap.next, { st with heap := st.heap.allocate o }, rfl, ?_⟩
  have : ({ st with heap := st.heap.allocate o } : Store).world = st.world.put st.heap.next o :=
    World.ext_find (fun g => Heap.find?_allocate st.heap o g) rfl rfl
  rw [this]
  exact post _ (Heap.find?_next st.heap)

theorem wp_object {h : Handle} {o : Object} (live : w.find h = some o) {Q : Object → World → Prop}
    (post : Q o w) : wp (object h) Q w := by
  refine wp_bind (wp_get fun st hst => ?_)
  have : st.heap.find? h = some o := by rw [← live, ← hst]; rfl
  rw [this]
  exact wp_pure post

theorem wp_replace {h : Handle} {old o : Object} (live : w.find h = some old)
    {Q : Unit → World → Prop} (post : Q () (w.put h o)) : wp (replace h o) Q w := by
  intro st hst
  subst hst
  refine ⟨(), { st with heap := st.heap.replace h o }, rfl, ?_⟩
  have : ({ st with heap := st.heap.replace h o } : Store).world = st.world.put h o :=
    World.ext_find (fun g => Heap.find?_replace live o g) rfl rfl
  rwa [this]

theorem wp_release {h : Handle} {Q : Unit → World → Prop} (post : Q () (w.drop h)) :
    wp (release h) Q w := by
  intro st hst
  subst hst
  refine ⟨(), { st with heap := st.heap.release h }, rfl, ?_⟩
  have : ({ st with heap := st.heap.release h } : Store).world = st.world.drop h :=
    World.ext_find (fun g => Heap.find?_release st.heap h g) rfl rfl
  rwa [this]

end Store

end Custody
