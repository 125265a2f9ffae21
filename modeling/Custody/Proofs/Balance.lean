/-
  Custody.Proofs.Balance — what deeds have to do with what there is.

  Let a text in an allocation of its own, a vector, and a text inside a vector each have a price
  (`Prices`). A deed is then worth what it adds to the values, and the worth of all values changes by
  the worth of what was done, at any prices (`Moves.balance`). Counting texts, vectors or items is
  choosing prices.
-/
import Mathlib.Algebra.BigOperators.Ring.Finset
import Mathlib.Tactic.Ring
import Custody.Proofs.Moves
import Custody.Proofs.Totals

namespace Custody

/-! ## Prices -/

structure Prices where
  /-- A text in an allocation of its own. -/
  loose : Int
  vector : Int
  /-- A text in a vector. -/
  inside : Int

variable (c : Prices)

def Object.worth : Object → Int
  | .text _ => c.loose
  | .vector e xs => c.vector + c.inside * e.texts xs.size

/-- What a deed adds to the values. -/
def Deed.worth : Deed → Int
  | .created => c.loose
  | .popped => c.loose - c.inside
  | .freed => -c.loose
  | .moved => c.inside - c.loose
  | .vectorMade => c.vector
  | .vectorEnded texts => -(c.vector + c.inside * texts)

def Deed.worths (ds : List Deed) : Int := (ds.map (Deed.worth c)).sum

namespace Deed

theorem worths_cons (d : Deed) (ds : List Deed) : worths c (d :: ds) = d.worth c + worths c ds := rfl

theorem worths_append (ds ds' : List Deed) : worths c (ds ++ ds') = worths c ds + worths c ds' := by
  simp [worths]

theorem worths_pushAll {α : Type} (e : Element) (xs : List α) :
    worths c (xs.flatMap fun _ => e.pushDeeds) = c.inside * e.texts xs.length := by
  induction xs with
  | nil => cases e <;> simp [worths, Element.texts]
  | cons x xs ih =>
    rw [List.flatMap_cons, worths_append, ih]
    cases e with
    | text => simp [worths, worth, Element.pushDeeds, Element.texts]; ring
    | scalar q => simp [worths, Element.pushDeeds, Element.texts]

theorem worths_popDeeds (e : Element) (xs : List e.Item) :
    worths c (e.popDeeds xs) = c.inside * e.texts xs.dropLast.length - c.inside * e.texts xs.length := by
  cases e with
  | text =>
    cases xs with
    | nil => simp [worths, Element.popDeeds, Element.texts]
    | cons x xs => simp [worths, worth, Element.popDeeds, Element.texts]; ring
  | scalar q => simp [worths, Element.popDeeds, Element.texts]

end Deed

theorem Object.worth_text (t : String) : (Object.text t).worth c = c.loose := rfl

theorem Object.worth_ofList (e : Element) (xs : List e.Item) :
    (Object.ofList e xs).worth c = c.vector + c.inside * e.texts xs.length := rfl

namespace Plain

/-- What all values are worth. -/
def worth (p : Plain) : Int :=
  p.texts.total (fun t => (Object.text t).worth c) + p.owned.total (fun t => (Object.text t).worth c) +
    p.released.total (fun t => (Object.text t).worth c) +
    p.vectors.total (fun xs => (Object.ofList xs.1 xs.2).worth c) +
    p.releasedVectors.total (fun xs => (Object.ofList xs.1 xs.2).worth c)

variable (p : Plain) (k : Shelf)

theorem worth_set (u : Slots k.Value) :
    (k.plain.set p u).worth c =
      p.worth c - (k.plain.of p).total (fun v => (k.object v).worth c) + u.total (fun v => (k.object v).worth c) := by
  cases k <;> simp only [worth, Shelf.plain, Shelf.object, Table.texts, Table.owned, Table.released, Table.vectors,
    Table.releasedVectors] <;> ring

theorem worth_add (v : k.Value) :
    (k.plain.set p ((k.plain.of p).add v)).worth c = p.worth c + (k.object v).worth c := by
  rw [worth_set, Slots.total_add]
  ring

theorem worth_clear {i : Nat} {v : k.Value} (at_i : (k.plain.of p).get? i = some v) :
    (k.plain.set p ((k.plain.of p).clear i)).worth c = p.worth c - (k.object v).worth c := by
  rw [worth_set, ← Slots.total_clear _ at_i]
  ring

theorem worth_put {i : Nat} {v : k.Value} (at_i : (k.plain.of p).get? i = some v) (v' : k.Value) :
    (k.plain.set p ((k.plain.of p).put i v')).worth c =
      p.worth c - (k.object v).worth c + (k.object v').worth c := by
  have put := Slots.total_put (fun v => (k.object v).worth c) at_i v'
  rw [worth_set]
  omega

omit k in
/-- Deeds, settings and marks are worth nothing. -/
theorem worth_noted (settings : Settings) (deeds : List Deed) (mark : Ledger) :
    ({ p with settings, deeds, mark } : Plain).worth c = p.worth c := rfl

section
variable {p p' : Plain} {L : List Holder}

/-- A move changes the worth of the values by the worth of its deeds. -/
theorem Move.balance (move : Move L p p') :
    ∃ ds, p'.deeds = p.deeds ++ ds ∧ ∀ c, p'.worth c = p.worth c + Deed.worths c ds := by
  cases move with
  | noted => exact ⟨[], (List.append_nil _).symm, fun c => (Int.add_zero _).symm⟩
  | made t =>
    refine ⟨[.created], rfl, fun c => (worth_add c p .texts t).trans ?_⟩
    simp [Deed.worths, Deed.worth, Shelf.object, Object.worth_text]
  | @rewritten k i v v' t t' _ at_i text text' =>
    refine ⟨[], ?_, fun c => (worth_put c p k at_i v').trans ?_⟩
    · rw [Shelf.deeds_set, List.append_nil]
    · simp [Deed.worths, text, text', Object.worth_text]
  | @freed k i v t _ at_i text =>
    refine ⟨[.freed], rfl, fun c => ?_⟩
    rw [worth_noted, worth_clear c p k at_i, text]
    simp [Deed.worths, Deed.worth, Object.worth_text]
    ring
  | @handed k k' i v v' _ at_i same =>
    refine ⟨[], ?_, fun c => ?_⟩
    · rw [Shelf.deeds_set, Shelf.deeds_set, List.append_nil]
    · rw [worth_add, worth_clear c p k at_i, same]
      simp [Deed.worths]
  | vectorMade e xs =>
    refine ⟨_, rfl, fun c => (worth_add c p .vectors ⟨e, xs⟩).trans ?_⟩
    rw [Deed.worths_cons, Deed.worths_pushAll]
    rfl
  | @vectorEnded v e xs _ at_v =>
    refine ⟨_, rfl, fun c => (worth_clear c p .vectors at_v).trans ?_⟩
    simp [Deed.worths, Deed.worth, Shelf.object, Object.worth_ofList]
    ring
  | @filled v e xs _ at_v ys =>
    refine ⟨_, rfl, fun c => (worth_put c p .vectors at_v ⟨e, xs ++ ys⟩).trans ?_⟩
    rw [Deed.worths_pushAll]
    cases e with
    | text => simp [Shelf.object, Object.worth_ofList, Element.texts]; ring
    | scalar q => simp [Shelf.object, Object.worth_ofList, Element.texts]
  | @movedIn v i ts t _ _ at_v at_i =>
    refine ⟨_, rfl, fun c =>
      (worth_put c { p with texts := p.texts.clear i } .vectors at_v ⟨.text, ts ++ [t]⟩).trans ?_⟩
    have cleared := worth_clear c p .texts at_i
    rw [show ({ p with texts := p.texts.clear i } : Plain).worth c = _ from cleared]
    simp [Deed.worths, Deed.worth, Shelf.object, Object.worth_ofList, Object.worth_text, Element.texts]
    ring
  | @movedOut v ts t _ at_v last =>
    refine ⟨_, rfl, fun c =>
      (worth_add c { p with vectors := p.vectors.put v ⟨.text, ts.dropLast⟩ } .texts t).trans ?_⟩
    have put := worth_put c p .vectors at_v ⟨.text, ts.dropLast⟩
    rw [show ({ p with vectors := p.vectors.put v ⟨.text, ts.dropLast⟩ } : Plain).worth c = _ from put]
    have size : (ts.length : Int) = ts.dropLast.length + 1 := by
      cases ts with
      | nil => cases last
      | cons t ts => simp
    simp only [Shelf.object, Object.worth_ofList, Object.worth_text, Element.texts, size, Deed.worths, List.map_cons,
      List.map_nil, List.sum_cons, List.sum_nil, Deed.worth]
    ring
  | @shortened v e xs _ at_v =>
    refine ⟨_, rfl, fun c => (worth_put c p .vectors at_v ⟨e, xs.dropLast⟩).trans ?_⟩
    rw [Deed.worths_popDeeds]
    simp only [Shelf.object, Object.worth_ofList]
    ring
  | @edited v e xs ys _ at_v same =>
    refine ⟨[], (List.append_nil _).symm, fun c => (worth_put c p .vectors at_v ⟨e, ys⟩).trans ?_⟩
    simp [Deed.worths, Shelf.object, Object.worth_ofList, same]

theorem Moves.balance (moves : Moves L p p') :
    ∃ ds, p'.deeds = p.deeds ++ ds ∧ ∀ c, p'.worth c = p.worth c + Deed.worths c ds := by
  induction moves with
  | refl => exact ⟨[], (List.append_nil _).symm, fun c => (Int.add_zero _).symm⟩
  | tail _ move ih =>
    obtain ⟨ds, deeds, worth⟩ := ih
    obtain ⟨ds', deeds', worth'⟩ := move.balance
    refine ⟨ds ++ ds', by rw [deeds', deeds, List.append_assoc], fun c => ?_⟩
    rw [worth', worth, Deed.worths_append]
    ring

/-- Over a run without a reset, the worth of the values changes by the worth of what was done. -/
theorem run_balance (wire : Wire) (ops : List Op) : ∀ {p : Plain}, .resetLedger ∉ ops →
    ∃ ds, (p.run wire ops).2.deeds = p.deeds ++ ds ∧
      ∀ c, (p.run wire ops).2.worth c = p.worth c + Deed.worths c ds := by
  induction ops with
  | nil => intro p _; exact ⟨[], (List.append_nil _).symm, fun c => (Int.add_zero _).symm⟩
  | cons op ops ih =>
    intro p noReset
    have first : op ≠ .resetLedger := fun e => noReset (by rw [e]; exact List.mem_cons_self)
    obtain ⟨ds, deeds, worth⟩ := (step_moves (p := p) wire op first).balance
    obtain ⟨ds', deeds', worth'⟩ := ih (p := (p.step wire op).2) fun mem => noReset (List.mem_cons_of_mem _ mem)
    refine ⟨ds ++ ds', ?_, fun c => ?_⟩
    · rw [← List.append_assoc, ← deeds]
      exact deeds'
    · rw [Deed.worths_append, ← Int.add_assoc, ← worth c]
      exact worth' c

end

end Plain

end Custody
