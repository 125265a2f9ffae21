/-
  Custody.Proofs.Naming — one consumer's values among those of others.

  `Names` says which slot of a session each slot of some consumer is: it would number its slots from the
  first on, were it alone, and here it is not, or has moved its values about. `Op.at` is an operation with
  the consumer's slots replaced by those of the session, and `Names.hear` is what the consumer makes of the
  answer. `Names.Match` relates the values that the consumer would have alone to those of the session, for
  the slots that are its own.

  Two actions in lockstep (`Lockstep`) do the same to both; there is a rule for each thing that an action can
  do to a slot.
-/
import Custody.Proofs.Moves

namespace Custody

theorem Holder.eq_of_parts {q : Holder} {k : Shelf} {i : Nat} (shelf : q.shelf = k) (slot : q.slot = i) :
    q = ⟨k, i⟩ := by
  subst shelf
  subst slot
  rfl

/-! ## Operations and the slots they name -/

namespace Op

/-- The slots that an operation names. -/
def names : Op → List Holder
  | .readText i _ | .editText i _ _ | .compareWithText i _ | .hashText i | .dropText i | .releaseText i =>
    [⟨.texts, i⟩]
  | .compareTexts i j => [⟨.texts, i⟩, ⟨.texts, j⟩]
  | .countDistinct slots => slots.map (⟨.texts, ·⟩)
  | .adoptText i | .freeReleased i | .adoptOwned i => [⟨.released, i⟩]
  | .readOwned i | .editOwned i _ | .dropOwned i | .releaseOwned i => [⟨.owned, i⟩]
  | .pushText v i => [⟨.vectors, v⟩, ⟨.texts, i⟩]
  | .push v _ | .extend v _ _ | .pop v | .get v _ | .getMut v _ | .itemAt v _ | .vectorLen v | .debugVector v
  | .listVector v | .sliceVector v | .dropVector v | .releaseVector v | .editItem v _ _ | .readItem v _
  | .compareItems v _ _ | .walk v _ | .directPush v _ | .directPop v | .directGet v _ | .directGetMut v _
  | .directLen v => [⟨.vectors, v⟩]
  | .adoptVector i => [⟨.releasedVectors, i⟩]
  | .configure _ | .resetLedger | .markLedger | .ledgerSinceMark | .newText | .textFrom _ | .newVector _
  | .collectVector _ _ => []

/-- Whether it is about values, and not about the settings or the whole ledger. -/
def Local : Op → Prop
  | .configure _ | .resetLedger | .markLedger | .ledgerSinceMark => False
  | _ => True

/-- Whether it ends an owner of a text, or has it let go. -/
def EndsOwner : Op → Prop
  | .dropText _ | .releaseText _ | .dropOwned _ | .releaseOwned _ => True
  | _ => False

/-- Where a new value goes, if there is one. -/
def makes : Op → Shelf
  | .releaseText _ | .releaseOwned _ => .released
  | .adoptOwned _ => .owned
  | .newVector _ | .collectVector _ _ | .adoptVector _ => .vectors
  | .releaseVector _ => .releasedVectors
  | _ => .texts

/-- The drop of an owner of a text. -/
def dropOf : Holder → Op
  | ⟨.owned, i⟩ => .dropOwned i
  | ⟨_, i⟩ => .dropText i

/-- Its letting go. -/
def releaseOf : Holder → Op
  | ⟨.owned, i⟩ => .releaseOwned i
  | ⟨_, i⟩ => .releaseText i

end Op

/-! ## Names -/

structure Names where
  /-- How many slots of each kind the consumer has had. -/
  next : Shelf → Nat
  /-- Which slots they are. -/
  find : Holder → Holder

namespace Names

variable (a : Names) (n : Shelf → Nat)

/-- The slot that is named, in a session whose next slots are `n`: what was not made for the consumer was
    not made there. -/
def place (q : Holder) : Holder := if q.slot < a.next q.shelf then a.find q else ⟨q.shelf, n q.shelf⟩

/-- Its number, for an operation that wants a slot of that kind: one that was not made if it is of another. -/
def slot (q : Holder) : Nat := if (a.place n q).shelf = q.shelf then (a.place n q).slot else n q.shelf

/-- The slot, for an operation that wants an owner of a text. -/
def owner (q : Holder) : Holder :=
  if (a.place n q).shelf = .texts ∨ (a.place n q).shelf = .owned then a.place n q else ⟨q.shelf, n q.shelf⟩

/-- The consumer's next slot of a kind is slot `i`. -/
def add (k : Shelf) (i : Nat) : Names where
  next k' := if k' = k then a.next k + 1 else a.next k'
  find q := if q = ⟨k, a.next k⟩ then ⟨k, i⟩ else a.find q

/-- What was made keeps its name. -/
theorem found_add (k : Shelf) (i : Nat) {q : Holder} (made : q.slot < a.next q.shelf) :
    q.slot < (a.add k i).next q.shelf ∧ (a.add k i).find q = a.find q := by
  have other : q ≠ ⟨k, a.next k⟩ := by
    rintro rfl
    exact Nat.lt_irrefl _ made
  refine ⟨?_, if_neg other⟩
  simp only [add]
  split
  · rename_i e
    rw [← e]
    omega
  · exact made

theorem next_le_add (k : Shelf) (i : Nat) (k' : Shelf) : a.next k' ≤ (a.add k i).next k' := by
  simp only [add]
  split
  · rename_i e
    rw [e]
    omega
  · exact Nat.le_refl _

theorem made_of_add {k : Shelf} {i : Nat} {q : Holder} (other : q ≠ ⟨k, a.next k⟩)
    (made : q.slot < (a.add k i).next q.shelf) : q.slot < a.next q.shelf := by
  simp only [add] at made
  split at made
  · rename_i e
    have : q.slot ≠ a.next k := fun last => other (Holder.eq_of_parts e last)
    rw [e]
    omega
  · exact made

/-- An answer as the consumer would get it alone, and the names after it. -/
def hear (op : Op) : Answer → Answer × Names
  | .slot i => (.slot (a.next op.makes), a.add op.makes i)
  | .poppedText (some (i, t)) => (.poppedText (some (a.next .texts, t)), a.add .texts i)
  | y => (y, a)

end Names

/-- The operation with the slots that are meant. -/
def Op.at (a : Names) (n : Shelf → Nat) : Op → Op
  | .readText i via => .readText (a.slot n ⟨.texts, i⟩) via
  | .editText i via edits => .editText (a.slot n ⟨.texts, i⟩) via edits
  | .compareTexts i j => .compareTexts (a.slot n ⟨.texts, i⟩) (a.slot n ⟨.texts, j⟩)
  | .compareWithText i t => .compareWithText (a.slot n ⟨.texts, i⟩) t
  | .hashText i => .hashText (a.slot n ⟨.texts, i⟩)
  | .dropText i => dropOf (a.owner n ⟨.texts, i⟩)
  | .releaseText i => releaseOf (a.owner n ⟨.texts, i⟩)
  | .adoptText i => .adoptText (a.slot n ⟨.released, i⟩)
  | .freeReleased i => .freeReleased (a.slot n ⟨.released, i⟩)
  | .countDistinct slots => .countDistinct (slots.map fun i => a.slot n ⟨.texts, i⟩)
  | .adoptOwned i => .adoptOwned (a.slot n ⟨.released, i⟩)
  | .readOwned i => .readOwned (a.slot n ⟨.owned, i⟩)
  | .editOwned i edits => .editOwned (a.slot n ⟨.owned, i⟩) edits
  | .dropOwned i => dropOf (a.owner n ⟨.owned, i⟩)
  | .releaseOwned i => releaseOf (a.owner n ⟨.owned, i⟩)
  | .push v x => .push (a.slot n ⟨.vectors, v⟩) x
  | .pushText v i => .pushText (a.slot n ⟨.vectors, v⟩) (a.slot n ⟨.texts, i⟩)
  | .extend v e xs => .extend (a.slot n ⟨.vectors, v⟩) e xs
  | .pop v => .pop (a.slot n ⟨.vectors, v⟩)
  | .get v i => .get (a.slot n ⟨.vectors, v⟩) i
  | .getMut v i => .getMut (a.slot n ⟨.vectors, v⟩) i
  | .itemAt v i => .itemAt (a.slot n ⟨.vectors, v⟩) i
  | .vectorLen v => .vectorLen (a.slot n ⟨.vectors, v⟩)
  | .debugVector v => .debugVector (a.slot n ⟨.vectors, v⟩)
  | .listVector v => .listVector (a.slot n ⟨.vectors, v⟩)
  | .sliceVector v => .sliceVector (a.slot n ⟨.vectors, v⟩)
  | .dropVector v => .dropVector (a.slot n ⟨.vectors, v⟩)
  | .releaseVector v => .releaseVector (a.slot n ⟨.vectors, v⟩)
  | .adoptVector i => .adoptVector (a.slot n ⟨.releasedVectors, i⟩)
  | .editItem v i edits => .editItem (a.slot n ⟨.vectors, v⟩) i edits
  | .readItem v i => .readItem (a.slot n ⟨.vectors, v⟩) i
  | .compareItems v i j => .compareItems (a.slot n ⟨.vectors, v⟩) i j
  | .walk v steps => .walk (a.slot n ⟨.vectors, v⟩) steps
  | .directPush v x => .directPush (a.slot n ⟨.vectors, v⟩) x
  | .directPop v => .directPop (a.slot n ⟨.vectors, v⟩)
  | .directGet v i => .directGet (a.slot n ⟨.vectors, v⟩) i
  | .directGetMut v i => .directGetMut (a.slot n ⟨.vectors, v⟩) i
  | .directLen v => .directLen (a.slot n ⟨.vectors, v⟩)
  | op@(.configure _) | op@.resetLedger | op@.markLedger | op@.ledgerSinceMark | op@.newText | op@(.textFrom _)
  | op@(.newVector _) | op@(.collectVector _ _) => op

/-! ## Deeds in another order -/

theorem Ledger.record_comm (l : Ledger) (e e' : Event) : (l.record e).record e' = (l.record e').record e := by
  cases e with
  | vectorFree n =>
    cases e' with
    | vectorFree n' =>
      simp only [record]
      rw [UInt64.add_assoc l.elementsDropped, UInt64.add_assoc l.elementsDropped, UInt64.add_comm n]
    | _ => rfl
  | _ => cases e' <;> rfl

/-- The ledger does not tell in which order things were done. -/
theorem Ledger.ofDeeds_perm {ds ds' : List Deed} (same : ds.Perm ds') : ofDeeds ds = ofDeeds ds' :=
  (same.map Deed.event).foldl_eq' (fun e _ e' _ l => record_comm l e e') .empty

/-! ## Objects behind slots -/

namespace Shelf

variable {k k' : Shelf} (p : Plain)

@[simp] theorem next_set_clear (i : Nat) :
    (k'.plain.of (k.plain.set p ((k.plain.of p).clear i))).next = (k'.plain.of p).next := by
  by_cases e : k' = k
  · subst e
    rw [plain_of_set, Slots.next_clear]
  · rw [plain_of_set_ne p _ e]

@[simp] theorem next_set_put (i : Nat) (v : k.Value) :
    (k'.plain.of (k.plain.set p ((k.plain.of p).put i v))).next = (k'.plain.of p).next := by
  by_cases e : k' = k
  · subst e
    rw [plain_of_set, Slots.next_put]
  · rw [plain_of_set_ne p _ e]

theorem next_set_add (v : k.Value) : (k'.plain.of (k.plain.set p ((k.plain.of p).add v))).next =
    if k' = k then (k.plain.of p).next + 1 else (k'.plain.of p).next := by
  by_cases e : k' = k
  · subst e
    rw [plain_of_set, Slots.next_add, if_pos rfl]
  · rw [plain_of_set_ne p _ e, if_neg e]

end Shelf

namespace Plain

variable (p : Plain) {k : Shelf} (q : Holder)

theorem object?_clear_eq (i : Nat) : (k.plain.set p ((k.plain.of p).clear i)).object? q =
    if q = ⟨k, i⟩ then none else p.object? q := by
  split
  · rename_i e
    subst e
    rw [object?, Shelf.plain_of_set, Slots.get?_clear, if_pos rfl]
    rfl
  · rename_i other
    exact object?_clear p k other

theorem object?_put_eq {i : Nat} (made : i < (k.plain.of p).next) (v : k.Value) :
    (k.plain.set p ((k.plain.of p).put i v)).object? q = if q = ⟨k, i⟩ then some (k.object v) else p.object? q := by
  split
  · rename_i e
    subst e
    rw [object?, Shelf.plain_of_set, Slots.get?_put, if_pos ⟨rfl, made⟩]
    rfl
  · rename_i other
    exact object?_put p k other v

theorem object?_add_eq (v : k.Value) : (k.plain.set p ((k.plain.of p).add v)).object? q =
    if q = ⟨k, (k.plain.of p).next⟩ then some (k.object v) else p.object? q := by
  obtain ⟨k', i⟩ := q
  by_cases e : k' = k
  · subst e
    simp only [object?, Shelf.plain_of_set, Slots.get?_add, Holder.mk.injEq, true_and]
    split <;> rfl
  · rw [object?, Shelf.plain_of_set_ne p _ e, if_neg fun same => e (Holder.mk.inj same).1]
    rfl

theorem object?_unmade {p : Plain} {q : Holder} (unmade : (q.shelf.plain.of p).next ≤ q.slot) : p.object? q = none := by
  rw [object?, Option.map_eq_none_iff]
  cases at_q : (q.shelf.plain.of p).get? q.slot with
  | none => rfl
  | some v => exact absurd (Slots.lt_next_of_get? at_q) (Nat.not_lt.mpr unmade)

/-- What is in use was made. -/
theorem made_of_object? {p : Plain} {q : Holder} (live : p.object? q ≠ none) : q.slot < (q.shelf.plain.of p).next :=
  Nat.lt_of_not_le fun unmade => live (object?_unmade unmade)

section
variable {α : Type} (t : Table α) {i : Nat}

theorem run_take {p : Plain} {v : α} (at_i : (t.of p).get? i = some v) :
    (t.take i).run p = .ok (v, t.set p ((t.of p).clear i)) := by
  simp [Table.take, Table.peek, at_i]
  rfl

theorem run_take_none {p : Plain} (at_i : (t.of p).get? i = none) : (t.take i).run p = .error .emptySlot := by
  simp [Table.take, Table.peek, at_i]
  rfl

end

theorem object?_of_get? {p : Plain} {k : Shelf} {i : Nat} {v : k.Value} (at_i : (k.plain.of p).get? i = some v) :
    p.object? ⟨k, i⟩ = some (k.object v) := by
  rw [object?, at_i]
  rfl

end Plain

/-! ## Values by names -/

/-- The values `p` of the consumer are those of the session `P` at the slots with these names, for the slots
    in `D`, which has all that are still to be made. -/
structure Names.Match (D : Holder → Prop) (a : Names) (p P : Plain) : Prop where
  next : ∀ k, a.next k = (k.plain.of p).next
  inside : ∀ q, q.slot < a.next q.shelf → (a.find q).slot < ((a.find q).shelf.plain.of P).next
  same : ∀ q, D q → q.slot < a.next q.shelf → P.object? (a.find q) = p.object? q
  /-- Slots in use are different ones. -/
  single : ∀ q q', D q → D q' → p.object? q ≠ none → p.object? q' ≠ none → a.find q = a.find q' → q = q'
  toCome : ∀ q, a.next q.shelf ≤ q.slot → D q

namespace Names.Match

variable {D : Holder → Prop} {a : Names} {p P : Plain} (m : a.Match D p P)

include m

theorem made {q : Holder} (live : p.object? q ≠ none) : q.slot < a.next q.shelf := by
  rw [m.next]
  exact Plain.made_of_object? live

/-- What is made next has no name yet. -/
theorem find_ne_next {q : Holder} (made : q.slot < a.next q.shelf) (k : Shelf) :
    a.find q ≠ ⟨k, (k.plain.of P).next⟩ := by
  intro e
  have inside := m.inside q made
  rw [e] at inside
  exact Nat.lt_irrefl _ inside

/-- The slot of another value in use is another. -/
theorem find_ne {q q' : Holder} (own : D q) (own' : D q') (live : p.object? q ≠ none)
    (made : q'.slot < a.next q'.shelf) (ne : q' ≠ q) : a.find q' ≠ a.find q := by
  intro e
  have live' : p.object? q' ≠ none := by rwa [← m.same q' own' made, e, m.same q own (m.made live)]
  exact ne (m.single q' q own' own live' live e)

variable {q : Holder} {k : Shelf} {j : Nat} (own : D q) (live : p.object? q ≠ none) (here : a.find q = ⟨k, j⟩)

include own live here

/-- A value is taken from both. -/
theorem take : a.Match D (q.shelf.plain.set p ((q.shelf.plain.of p).clear q.slot))
    (k.plain.set P ((k.plain.of P).clear j)) where
  next k' := by rw [m.next, Shelf.next_set_clear]
  inside q' made := by
    rw [Shelf.next_set_clear]
    exact m.inside q' made
  same q' own' made := by
    rw [Plain.object?_clear_eq, Plain.object?_clear_eq, ← here]
    by_cases e : q' = q
    · subst e
      rw [if_pos rfl, if_pos rfl]
    · rw [if_neg (m.find_ne own own' live made e), if_neg e]
      exact m.same q' own' made
  single q₁ q₂ own₁ own₂ live₁ live₂ := by
    refine m.single q₁ q₂ own₁ own₂ (fun none => live₁ ?_) fun none => live₂ ?_ <;>
      rw [Plain.object?_clear_eq, none, ite_self]
  toCome := m.toCome

/-- A value becomes another in both. -/
theorem put {v : q.shelf.Value} {v' : k.Value} (same : k.object v' = q.shelf.object v) :
    a.Match D (q.shelf.plain.set p ((q.shelf.plain.of p).put q.slot v)) (k.plain.set P ((k.plain.of P).put j v')) where
  next k' := by rw [m.next, Shelf.next_set_put]
  inside q' made := by
    rw [Shelf.next_set_put]
    exact m.inside q' made
  same q' own' made := by
    have inside : j < (k.plain.of P).next := by
      have inside := m.inside q (m.made live)
      rwa [here] at inside
    rw [Plain.object?_put_eq P _ inside, Plain.object?_put_eq p _ (Plain.made_of_object? live), same, ← here]
    by_cases e : q' = q
    · subst e
      rw [if_pos rfl, if_pos rfl]
    · rw [if_neg (m.find_ne own own' live made e), if_neg e]
      exact m.same q' own' made
  single q₁ q₂ own₁ own₂ live₁ live₂ := by
    have kept (q' : Holder) (live' : (q.shelf.plain.set p ((q.shelf.plain.of p).put q.slot v)).object? q' ≠ none) :
        p.object? q' ≠ none := by
      rw [Plain.object?_put_eq p _ (Plain.made_of_object? live)] at live'
      split at live'
      · rename_i e
        exact e ▸ live
      · exact live'
    exact m.single q₁ q₂ own₁ own₂ (kept q₁ live₁) (kept q₂ live₂)
  toCome := m.toCome

end Names.Match

namespace Names.Match

variable {D : Holder → Prop} {a : Names} {p P : Plain} (m : a.Match D p P)

include m

/-- The session has a new slot, which is slot `q₀` of the consumer now; the others have kept their names. -/
theorem renew {a' : Names} {p' P' : Plain} (q₀ : Holder) {k : Shelf} (next : ∀ k, a'.next k = (k.plain.of p').next)
    (later : ∀ k, a.next k ≤ a'.next k)
    (grown : ∀ k' : Shelf, (k'.plain.of P').next = if k' = k then (k.plain.of P).next + 1 else (k'.plain.of P).next)
    (last : a'.find q₀ = ⟨k, (k.plain.of P).next⟩)
    (old : ∀ q, q ≠ q₀ → q.slot < a'.next q.shelf → q.slot < a.next q.shelf ∧ a'.find q = a.find q)
    (new : P'.object? ⟨k, (k.plain.of P).next⟩ = p'.object? q₀) (kept : ∀ q, q ≠ q₀ → p'.object? q = p.object? q)
    (kept' : ∀ q, q ≠ q₀ → D q → q.slot < a.next q.shelf → P'.object? (a.find q) = P.object? (a.find q)) :
    a'.Match D p' P' := by
  constructor
  case next => exact next
  case inside =>
    intro q made
    by_cases e : q = q₀
    · rw [e, last, grown, if_pos rfl]
      exact Nat.lt_succ_self _
    · obtain ⟨before, found⟩ := old q e made
      have inside := m.inside q before
      rw [found, grown]
      split
      · rename_i shelf
        rw [shelf] at inside
        omega
      · exact inside
  case same =>
    intro q own made
    by_cases e : q = q₀
    · rw [e, last, new]
    · obtain ⟨before, found⟩ := old q e made
      rw [found, kept' q e own before, m.same q own before, kept q e]
  case single =>
    intro q q' own own' live live' same
    have before {q : Holder} (live : p'.object? q ≠ none) (e : q ≠ q₀) :
        p.object? q ≠ none ∧ q.slot < a.next q.shelf ∧ a'.find q = a.find q := by
      have made := Plain.made_of_object? live
      rw [← next] at made
      rw [kept q e] at live
      exact ⟨live, old q e made⟩
    by_cases e : q = q₀ <;> by_cases e' : q' = q₀
    · rw [e, e']
    · obtain ⟨-, made', found'⟩ := before live' e'
      rw [e, last, found'] at same
      exact absurd same.symm (m.find_ne_next made' k)
    · obtain ⟨-, made, found⟩ := before live e
      rw [e', last, found] at same
      exact absurd same (m.find_ne_next made k)
    · obtain ⟨alive, -, found⟩ := before live e
      obtain ⟨alive', -, found'⟩ := before live' e'
      rw [found, found'] at same
      exact m.single q q' own own' alive alive' same
  case toCome => exact fun q late => m.toCome q (Nat.le_trans (later _) late)

/-- A new value is the next of both. -/
theorem add (k : Shelf) (v : k.Value) : (a.add k (k.plain.of P).next).Match D
    (k.plain.set p ((k.plain.of p).add v)) (k.plain.set P ((k.plain.of P).add v)) := by
  have next := m.next k
  refine m.renew ⟨k, a.next k⟩ (fun k' => ?_) (a.next_le_add k _) (fun k' => Shelf.next_set_add ..)
    (if_pos rfl) (fun q other made => ⟨a.made_of_add other made, if_neg other⟩) ?_ (fun q other => ?_)
    fun q _ _ made => ?_
  · simp only [Names.add, Shelf.next_set_add, ← m.next]
  · rw [Plain.object?_add_eq, Plain.object?_add_eq, if_pos rfl, if_pos (by rw [next])]
  · rw [Plain.object?_add_eq, ← next, if_neg other]
  · rw [Plain.object?_add_eq, if_neg (m.find_ne_next made k)]

/-- What is only written down is not a value. -/
theorem of_kept {p' P' : Plain} (kept : ∀ k : Shelf, k.plain.of p' = k.plain.of p)
    (kept' : ∀ k : Shelf, k.plain.of P' = k.plain.of P) : a.Match D p' P' where
  next k := by rw [kept]; exact m.next k
  inside q made := by rw [kept']; exact m.inside q made
  same q own made := by simp only [Plain.object?, kept, kept']; exact m.same q own made
  single := by simp only [Plain.object?, kept]; exact m.single
  toCome := m.toCome

end Names.Match

/-! ## Lockstep -/

/-- Both actions are refused for the same reason, or end with results and values as `Q` says. -/
def Lockstep {α β : Type} (c : Plain.Act α) (C : Plain.Act β) (p P : Plain) (Q : α → Plain → β → Plain → Prop) : Prop :=
  (∃ x p' y P', c.run p = .ok (x, p') ∧ C.run P = .ok (y, P') ∧ Q x p' y P') ∨
    ∃ why, c.run p = .error why ∧ C.run P = .error why

namespace Lockstep

variable {α β γ δ : Type} {p P : Plain} {Q : α → Plain → β → Plain → Prop}

theorem pure {x : α} {y : β} (post : Q x p y P) : Lockstep (pure x) (pure y) p P Q :=
  .inl ⟨x, p, y, P, rfl, rfl, post⟩

theorem refuse {why : Refusal} : Lockstep (throw why) (throw why) p P Q := .inr ⟨why, rfl, rfl⟩

theorem bind {c : Plain.Act γ} {C : Plain.Act δ} {f : γ → Plain.Act α} {g : δ → Plain.Act β}
    (first : Lockstep c C p P fun x p y P => Lockstep (f x) (g y) p P Q) : Lockstep (c >>= f) (C >>= g) p P Q := by
  rcases first with ⟨x, p', y, P', run, Run, rest⟩ | ⟨why, run, Run⟩
  · rcases rest with ⟨x', p'', y', P'', run', Run', post⟩ | ⟨why, run', Run'⟩
    · refine .inl ⟨x', p'', y', P'', ?_, ?_, post⟩
      · rw [StateT.run_bind, run]; exact run'
      · rw [StateT.run_bind, Run]; exact Run'
    · refine .inr ⟨why, ?_, ?_⟩
      · rw [StateT.run_bind, run]; exact run'
      · rw [StateT.run_bind, Run]; exact Run'
  · refine .inr ⟨why, ?_, ?_⟩
    · rw [StateT.run_bind, run]; rfl
    · rw [StateT.run_bind, Run]; rfl

theorem mono {c : Plain.Act α} {C : Plain.Act β} {R : α → Plain → β → Plain → Prop} (h : Lockstep c C p P Q)
    (le : ∀ x p y P, Q x p y P → R x p y P) : Lockstep c C p P R := by
  rcases h with ⟨x, p', y, P', run, Run, post⟩ | refused
  · exact .inl ⟨x, p', y, P', run, Run, le x p' y P' post⟩
  · exact .inr refused

theorem modify {f g : Plain → Plain} {c : Unit → Plain.Act α} {C : Unit → Plain.Act β}
    (rest : Lockstep (c ()) (C ()) (f p) (g P) Q) : Lockstep (modify f >>= c) (modify g >>= C) p P Q := rest

theorem get {c : Plain → Plain.Act α} {C : Plain → Plain.Act β} (rest : Lockstep (c p) (C P) p P Q) :
    Lockstep (get >>= c) (get >>= C) p P Q := rest

end Lockstep

/-! ### From slot to slot -/

/-- What a part of an operation has done to both, so far: to no slots of the session but those of `T`. -/
structure Tandem (D : Holder → Prop) (a : Names) (T : Holder → Prop) (p₀ P₀ p P : Plain) : Prop where
  matched : a.Match D p P
  nexts : ∀ k : Shelf, (k.plain.of P).next = (k.plain.of P₀).next
  deeds : ∃ ds, p.deeds = p₀.deeds ++ ds ∧ P.deeds = P₀.deeds ++ ds
  frame : ∀ q, ¬ T q → P.object? q = P₀.object? q
  noted : p.settings = p₀.settings ∧ p.mark = p₀.mark
  noted' : P.settings = P₀.settings ∧ P.mark = P₀.mark

/-- Slot `q'` of the session is slot `q` of the consumer, or both are empty. -/
structure Finds (D : Holder → Prop) (a : Names) (T : Holder → Prop) (p P : Plain) (q q' : Holder) : Prop where
  same : P.object? q' = p.object? q
  there : p.object? q ≠ none → D q ∧ T q' ∧ a.find q = q'

/-- What a whole operation has done to both: it may have made a value, which got a name. -/
structure Stepped (D : Holder → Prop) (a : Names) (T : Holder → Prop) (p₀ P₀ : Plain) (a' : Names) (p P : Plain) :
    Prop where
  matched : a'.Match D p P
  grown : (a' = a ∧ ∀ k : Shelf, (k.plain.of P).next = (k.plain.of P₀).next) ∨
    ∃ k, a' = a.add k (k.plain.of P₀).next ∧
      ∀ k', (k'.plain.of P).next = if k' = k then (k.plain.of P₀).next + 1 else (k'.plain.of P₀).next
  deeds : ∃ ds, p.deeds = p₀.deeds ++ ds ∧ P.deeds = P₀.deeds ++ ds
  frame : ∀ q, q.slot < (q.shelf.plain.of P₀).next → ¬ T q → P.object? q = P₀.object? q
  noted : p.settings = p₀.settings ∧ p.mark = p₀.mark
  noted' : P.settings = P₀.settings ∧ P.mark = P₀.mark

section
variable {D T : Holder → Prop} {a : Names} {p₀ P₀ p P : Plain} {q q' : Holder}

theorem Tandem.refl (m : a.Match D p P) : Tandem D a T p P p P :=
  ⟨m, fun _ => rfl, ⟨[], by simp⟩, fun _ _ => rfl, ⟨rfl, rfl⟩, ⟨rfl, rfl⟩⟩

theorem Tandem.stepped (t : Tandem D a T p₀ P₀ p P) : Stepped D a T p₀ P₀ a p P :=
  ⟨t.matched, .inl ⟨rfl, t.nexts⟩, t.deeds, fun q _ => t.frame q, t.noted, t.noted'⟩

namespace Tandem

variable (t : Tandem D a T p₀ P₀ p P)

include t

theorem take (finds : Finds D a T p P q q') (live : p.object? q ≠ none) :
    Tandem D a T p₀ P₀ (q.shelf.plain.set p ((q.shelf.plain.of p).clear q.slot))
      (q'.shelf.plain.set P ((q'.shelf.plain.of P).clear q'.slot)) := by
  obtain ⟨own, touched, here⟩ := finds.there live
  refine ⟨t.matched.take own live here, fun k => (Shelf.next_set_clear ..).trans (t.nexts k), ?_, fun q₁ other => ?_,
    ?_, ?_⟩
  · simp only [Shelf.deeds_set]
    exact t.deeds
  · have ne : q₁ ≠ q' := by
      rintro rfl
      exact other touched
    rw [Plain.object?_clear_eq, if_neg ne]
    exact t.frame q₁ other
  · simp only [Shelf.settings_set, Shelf.plain_mark_set]
    exact t.noted
  · simp only [Shelf.settings_set, Shelf.plain_mark_set]
    exact t.noted'

theorem put (finds : Finds D a T p P q q') (live : p.object? q ≠ none) {v : q.shelf.Value} {v' : q'.shelf.Value}
    (same : q'.shelf.object v' = q.shelf.object v) :
    Tandem D a T p₀ P₀ (q.shelf.plain.set p ((q.shelf.plain.of p).put q.slot v))
      (q'.shelf.plain.set P ((q'.shelf.plain.of P).put q'.slot v')) := by
  obtain ⟨own, touched, here⟩ := finds.there live
  have made : q'.slot < (q'.shelf.plain.of P).next := by
    have inside := t.matched.inside q (t.matched.made live)
    rwa [here] at inside
  refine ⟨t.matched.put own live here same, fun k => (Shelf.next_set_put ..).trans (t.nexts k), ?_, fun q₁ other => ?_,
    ?_, ?_⟩
  · simp only [Shelf.deeds_set]
    exact t.deeds
  · have ne : q₁ ≠ q' := by
      rintro rfl
      exact other touched
    rw [Plain.object?_put_eq P _ made, if_neg ne]
    exact t.frame q₁ other
  · simp only [Shelf.settings_set, Shelf.plain_mark_set]
    exact t.noted
  · simp only [Shelf.settings_set, Shelf.plain_mark_set]
    exact t.noted'

theorem did (ds : List Deed) :
    Tandem D a T p₀ P₀ { p with deeds := p.deeds ++ ds } { P with deeds := P.deeds ++ ds } := by
  obtain ⟨ds₀, deeds, deeds'⟩ := t.deeds
  refine ⟨t.matched.of_kept (fun k => Shelf.plain_of_deeds ..) fun k => Shelf.plain_of_deeds .., fun k => ?_,
    ⟨ds₀ ++ ds, by rw [deeds, List.append_assoc], by rw [deeds', List.append_assoc]⟩, fun q other => ?_, t.noted,
    t.noted'⟩
  · rw [Shelf.plain_of_deeds]
    exact t.nexts k
  · rw [Plain.object?_deeds]
    exact t.frame q other

theorem add (k : Shelf) (v : k.Value) : Stepped D a T p₀ P₀ (a.add k (k.plain.of P).next)
    (k.plain.set p ((k.plain.of p).add v)) (k.plain.set P ((k.plain.of P).add v)) := by
  refine ⟨t.matched.add k v, .inr ⟨k, by rw [t.nexts], fun k' => ?_⟩, ?_, fun q made other => ?_, ?_, ?_⟩
  · rw [Shelf.next_set_add, t.nexts, t.nexts]
  · simp only [Shelf.deeds_set]
    exact t.deeds
  · have ne : q ≠ ⟨k, (k.plain.of P).next⟩ := by
      rintro rfl
      rw [t.nexts] at made
      exact Nat.lt_irrefl _ made
    rw [Plain.object?_add_eq, if_neg ne]
    exact t.frame q other
  · simp only [Shelf.settings_set, Shelf.plain_mark_set]
    exact t.noted
  · simp only [Shelf.settings_set, Shelf.plain_mark_set]
    exact t.noted'

/-- What is found is found after another value was taken from both. -/
theorem finds_take (finds : Finds D a T p P q q') (live : p.object? q ≠ none) {r r' : Holder}
    (other : Finds D a T p P r r') :
    Finds D a T (q.shelf.plain.set p ((q.shelf.plain.of p).clear q.slot))
      (q'.shelf.plain.set P ((q'.shelf.plain.of P).clear q'.slot)) r r' := by
  obtain ⟨own, -, here⟩ := finds.there live
  refine ⟨?_, fun live' => other.there fun none => live' ?_⟩
  · rw [Plain.object?_clear_eq, Plain.object?_clear_eq]
    by_cases e : r = q
    · subst e
      have same : r' = q' := (other.there live).2.2.symm.trans here
      rw [if_pos same, if_pos rfl]
    · have apart : r' ≠ q' := by
        intro same
        have live' : p.object? r ≠ none := by rwa [← other.same, same, finds.same]
        obtain ⟨own', -, there⟩ := other.there live'
        exact e (t.matched.single r q own' own live' live (there.trans (same.trans here.symm)))
      rw [if_neg apart, if_neg e]
      exact other.same
  · rw [Plain.object?_clear_eq, none, ite_self]

end Tandem

end

namespace Lockstep

variable {α β : Type} {D T : Holder → Prop} {a : Names} {p₀ P₀ p P : Plain} {Q : α → Plain → β → Plain → Prop}
  (t : Tandem D a T p₀ P₀ p P)

theorem peek {k : Shelf} {i j : Nat} (finds : Finds D a T p P ⟨k, i⟩ ⟨k, j⟩) {f : k.Value → Plain.Act α}
    {g : k.Value → Plain.Act β} (there : ∀ v, p.object? ⟨k, i⟩ ≠ none → Lockstep (f v) (g v) p P Q) :
    Lockstep (k.plain.peek i >>= f) (k.plain.peek j >>= g) p P Q := by
  have same := finds.same
  cases at_i : (k.plain.of p).get? i with
  | none =>
    have at_j : (k.plain.of P).get? j = none := by simpa [Plain.object?, at_i] using same
    refine .inr ⟨.emptySlot, ?_, ?_⟩
    · simp [Plain.Table.peek, at_i]; rfl
    · simp [Plain.Table.peek, at_j]; rfl
  | some v =>
    rw [Plain.object?_of_get? at_i] at same
    obtain ⟨v', at_j, eq⟩ := Option.map_eq_some_iff.mp same
    obtain rfl := Shelf.object_inj eq
    have live : p.object? ⟨k, i⟩ ≠ none := by rw [Plain.object?_of_get? at_i]; exact Option.some_ne_none _
    refine bind (.inl ⟨_, p, _, P, ?_, ?_, there v' live⟩)
    · simp [Plain.Table.peek, at_i]; rfl
    · simp [Plain.Table.peek, at_j]; rfl

include t

/-- The two may lie on different shelves. -/
theorem take {q q' : Holder} (finds : Finds D a T p P q q') {f : q.shelf.Value → Plain.Act α}
    {g : q'.shelf.Value → Plain.Act β}
    (there : ∀ v v', q'.shelf.object v' = q.shelf.object v → p.object? q ≠ none →
      Tandem D a T p₀ P₀ (q.shelf.plain.set p ((q.shelf.plain.of p).clear q.slot))
        (q'.shelf.plain.set P ((q'.shelf.plain.of P).clear q'.slot)) →
      Lockstep (f v) (g v') (q.shelf.plain.set p ((q.shelf.plain.of p).clear q.slot))
        (q'.shelf.plain.set P ((q'.shelf.plain.of P).clear q'.slot)) Q) :
    Lockstep (q.shelf.plain.take q.slot >>= f) (q'.shelf.plain.take q'.slot >>= g) p P Q := by
  have same := finds.same
  cases at_q : (q.shelf.plain.of p).get? q.slot with
  | none =>
    have at_q' : (q'.shelf.plain.of P).get? q'.slot = none := by simpa [Plain.object?, at_q] using same
    refine .inr ⟨.emptySlot, ?_, ?_⟩
    · rw [StateT.run_bind, Plain.run_take_none _ at_q]
      rfl
    · rw [StateT.run_bind, Plain.run_take_none _ at_q']
      rfl
  | some v =>
    have live : p.object? q ≠ none := by rw [Plain.object?_of_get? at_q]; exact Option.some_ne_none _
    rw [Plain.object?_of_get? at_q] at same
    obtain ⟨v', at_q', eq⟩ := Option.map_eq_some_iff.mp same
    exact bind (.inl ⟨v, _, v', _, Plain.run_take _ at_q, Plain.run_take _ at_q',
      there v v' eq live (t.take finds live)⟩)

theorem put {k : Shelf} {i j : Nat} (finds : Finds D a T p P ⟨k, i⟩ ⟨k, j⟩) (live : p.object? ⟨k, i⟩ ≠ none)
    (v : k.Value) {f : Unit → Plain.Act α} {g : Unit → Plain.Act β}
    (rest : Tandem D a T p₀ P₀ (k.plain.set p ((k.plain.of p).put i v)) (k.plain.set P ((k.plain.of P).put j v)) →
      Lockstep (f ()) (g ()) (k.plain.set p ((k.plain.of p).put i v)) (k.plain.set P ((k.plain.of P).put j v)) Q) :
    Lockstep (k.plain.put i v >>= f) (k.plain.put j v >>= g) p P Q :=
  rest (t.put finds live rfl)

theorem did (ds : List Deed) {f : Unit → Plain.Act α} {g : Unit → Plain.Act β}
    (rest : Tandem D a T p₀ P₀ { p with deeds := p.deeds ++ ds } { P with deeds := P.deeds ++ ds } →
      Lockstep (f ()) (g ()) { p with deeds := p.deeds ++ ds } { P with deeds := P.deeds ++ ds } Q) :
    Lockstep (Plain.did ds >>= f) (Plain.did ds >>= g) p P Q :=
  rest (t.did ds)

theorem add (k : Shelf) (v : k.Value) {f g : Nat → Plain.Act Answer} {R : Answer → Plain → Answer → Plain → Prop}
    (rest : Stepped D a T p₀ P₀ (a.add k (k.plain.of P).next) (k.plain.set p ((k.plain.of p).add v))
        (k.plain.set P ((k.plain.of P).add v)) →
      Lockstep (f (a.next k)) (g (k.plain.of P).next) (k.plain.set p ((k.plain.of p).add v))
        (k.plain.set P ((k.plain.of P).add v)) R) :
    Lockstep (k.plain.bind v >>= f) (k.plain.bind v >>= g) p P R := by
  have next := t.matched.next k
  refine bind (.inl ⟨a.next k, _, _, _, ?_, rfl, rest (t.add k v)⟩)
  rw [next]
  rfl

omit t in
theorem itemsOf {e : Element} {i j : Nat} (finds : Finds D a T p P ⟨.vectors, i⟩ ⟨.vectors, j⟩)
    {f : List e.Item → Plain.Act α} {g : List e.Item → Plain.Act β}
    (there : ∀ xs, p.object? ⟨.vectors, i⟩ ≠ none → Lockstep (f xs) (g xs) p P Q) :
    Lockstep (Plain.itemsOf e i >>= f) (Plain.itemsOf e j >>= g) p P Q := by
  refine bind (peek finds fun ⟨e', xs⟩ live => ?_)
  by_cases same : e' = e
  · subst same
    show Lockstep (if same : e' = e' then Pure.pure (same ▸ xs) else throw Refusal.wrongElement)
      (if same : e' = e' then Pure.pure (same ▸ xs) else throw Refusal.wrongElement) p P _
    simp only [dite_true]
    exact pure (there xs live)
  · show Lockstep (if same : e' = e then Pure.pure (same ▸ xs) else throw Refusal.wrongElement)
      (if same : e' = e then Pure.pure (same ▸ xs) else throw Refusal.wrongElement) p P _
    simp only [same, dite_false]
    exact refuse

end Lockstep

end Custody
