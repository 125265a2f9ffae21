/-
  Custody.Proofs.NamedSteps — an operation does to named slots what it does to the consumer's own.

  As long as the values that an operation names are where it can reach them (`Names.Ready`), it is told what it
  would be told alone, does the same deeds, and leaves the same values behind, but for the names of slots
  (`Names.Match.step`, and for sessions `Names.Match.stepBy`). No other slot of the session is touched.
-/
import Custody.Proofs.Faithful
import Custody.Proofs.Naming

namespace Custody

/-- The operation finds what it names: each value in a slot of the right kind, or, where it only ends an owner
    of a text, with either kind of owner. -/
def Names.Ready (a : Names) (op : Op) (p : Plain) : Prop :=
  ∀ q ∈ op.names, p.object? q ≠ none → (a.find q).shelf = q.shelf ∨
    op.EndsOwner ∧ ((a.find q).shelf = .texts ∨ (a.find q).shelf = .owned)

/-- The slots of the session that an operation of the consumer is about: what it names, and is there. -/
def Names.Touches (a : Names) (op : Op) (p : Plain) (q : Holder) : Prop :=
  ∃ q' ∈ op.names, p.object? q' ≠ none ∧ a.find q' = q

/-- What the consumer is told, and what the operation has done. -/
def Told (D : Holder → Prop) (a : Names) (op : Op) (p₀ P₀ : Plain) (y : Answer) (p : Plain) (Y : Answer) (P : Plain) :
    Prop :=
  ∃ a', a.hear op Y = (y, a') ∧ Stepped D a (a.Touches op p₀) p₀ P₀ a' p P

namespace Names.Match

variable {D : Holder → Prop} {a : Names} {op : Op} {p P : Plain} {q : Holder} (m : a.Match D p P)
  (mem : q ∈ op.names) (own : D q)

include m mem own

omit m in
theorem finds_of_place (Q : Holder) (same : P.object? Q = p.object? q) (here : p.object? q ≠ none → a.find q = Q) :
    Finds D a (a.Touches op p) p P q Q :=
  ⟨same, fun live => ⟨own, ⟨q, mem, live, here live⟩, here live⟩⟩

/-- A value in a slot of its own kind is found there. -/
theorem finds_slot (home : p.object? q ≠ none → (a.find q).shelf = q.shelf) :
    Finds D a (a.Touches op p) p P q ⟨q.shelf, a.slot (fun k => (k.plain.of P).next) q⟩ := by
  have unmade : P.object? ⟨q.shelf, (q.shelf.plain.of P).next⟩ = none := Plain.object?_unmade (Nat.le_refl _)
  by_cases made : q.slot < a.next q.shelf
  · by_cases kind : (a.find q).shelf = q.shelf
    · have here : a.find q = ⟨q.shelf, a.slot (fun k => (k.plain.of P).next) q⟩ := by
        simp only [slot, place, made, if_true, kind]
        exact Holder.eq_of_parts kind rfl
      exact finds_of_place mem own _ (here ▸ m.same q own made) fun _ => here
    · have dead : p.object? q = none := Classical.not_not.mp fun live => kind (home live)
      simp only [slot, place, made, if_true, kind, if_false]
      exact finds_of_place mem own _ (unmade.trans dead.symm) fun live => absurd dead live
  · have dead : p.object? q = none := Plain.object?_unmade (by rw [← m.next]; omega)
    simp only [slot, place, made, if_true, if_false]
    exact finds_of_place mem own _ (unmade.trans dead.symm) fun live => absurd dead live

/-- An owner of a text is found with the owners of texts. -/
theorem finds_owner (kind : q.shelf = .texts ∨ q.shelf = .owned)
    (home : p.object? q ≠ none → (a.find q).shelf = .texts ∨ (a.find q).shelf = .owned) :
    Finds D a (a.Touches op p) p P q (a.owner (fun k => (k.plain.of P).next) q) := by
  have unmade : P.object? ⟨q.shelf, (q.shelf.plain.of P).next⟩ = none := Plain.object?_unmade (Nat.le_refl _)
  by_cases made : q.slot < a.next q.shelf
  · by_cases owner : (a.find q).shelf = .texts ∨ (a.find q).shelf = .owned
    · simp only [Names.owner, place, made, if_true, owner]
      exact finds_of_place mem own _ (m.same q own made) fun _ => rfl
    · have dead : p.object? q = none := Classical.not_not.mp fun live => owner (home live)
      simp only [Names.owner, place, made, if_true, owner, if_false]
      exact finds_of_place mem own _ (unmade.trans dead.symm) fun live => absurd dead live
  · have dead : p.object? q = none := Plain.object?_unmade (by rw [← m.next]; omega)
    simp only [Names.owner, place, made, if_false, kind, if_true]
    exact finds_of_place mem own _ (unmade.trans dead.symm) fun live => absurd dead live

end Names.Match

theorem Names.owner_kind (a : Names) (n : Shelf → Nat) {q : Holder} (kind : q.shelf = .texts ∨ q.shelf = .owned) :
    (a.owner n q).shelf = .texts ∨ (a.owner n q).shelf = .owned := by
  unfold owner
  split
  · assumption
  · exact kind

/-! ## One operation -/

namespace Lockstep

variable {D : Holder → Prop} {a : Names} {op : Op} {p₀ P₀ p P : Plain}

/-- The operation ends, having made nothing. -/
theorem told {y : Answer} (t : Tandem D a (a.Touches op p₀) p₀ P₀ p P) (quiet : a.hear op y = (y, a)) :
    Lockstep (Pure.pure y) (Pure.pure y) p P (Told D a op p₀ P₀) :=
  pure ⟨a, quiet, t.stepped⟩

/-- The operation ends with a new value. -/
theorem told_slot {k : Shelf} (makes : op.makes = k) (v : k.Value) (t : Tandem D a (a.Touches op p₀) p₀ P₀ p P) :
    Lockstep (k.plain.bind v >>= fun i => Pure.pure (.slot i)) (k.plain.bind v >>= fun i => Pure.pure (.slot i)) p P
      (Told D a op p₀ P₀) := by
  subst makes
  exact add t op.makes v fun stepped => pure ⟨_, rfl, by rw [t.nexts]; rw [t.nexts] at stepped; exact stepped⟩

section
variable {q q' : Holder} (t : Tandem D a (a.Touches op p₀) p₀ P₀ p P) (finds : Finds D a (a.Touches op p₀) p P q q')

include t finds

/-- A text is given back. -/
theorem freed : Lockstep (do let _ ← q.shelf.plain.take q.slot; Plain.did [.freed]; Pure.pure Answer.done)
    (do let _ ← q'.shelf.plain.take q'.slot; Plain.did [.freed]; Pure.pure Answer.done) p P (Told D a op p₀ P₀) := by
  refine take t finds fun v v' same live t => ?_
  exact did t [.freed] fun t => told t rfl

/-- A value goes to another shelf. -/
theorem handed {k : Shelf} (makes : op.makes = k) (c : q.shelf.Value → k.Value) (c' : q'.shelf.Value → k.Value)
    (same : ∀ v, k.object (c v) = q.shelf.object v) (same' : ∀ v, k.object (c' v) = q'.shelf.object v) :
    Lockstep (do let v ← q.shelf.plain.take q.slot; return Answer.slot (← k.plain.bind (c v)))
      (do let v ← q'.shelf.plain.take q'.slot; return Answer.slot (← k.plain.bind (c' v))) p P (Told D a op p₀ P₀) := by
  refine take t finds fun v v' alike live t => ?_
  have value : c' v' = c v := Shelf.object_inj (by rw [same, same', alike])
  rw [value]
  exact told_slot makes (c v) t

variable (kind : q.shelf = .texts ∨ q.shelf = .owned) (kind' : q'.shelf = .texts ∨ q'.shelf = .owned)

include kind kind'

theorem dropOf (wire : Wire) :
    Lockstep (Plain.perform wire (.dropOf q)) (Plain.perform wire (.dropOf q')) p P (Told D a op p₀ P₀) := by
  have rest := freed t finds
  obtain ⟨k, i⟩ := q
  obtain ⟨k', j⟩ := q'
  rcases kind with rfl | rfl <;> rcases kind' with rfl | rfl <;> exact rest

theorem releaseOf (wire : Wire) (makes : op.makes = .released) :
    Lockstep (Plain.perform wire (.releaseOf q)) (Plain.perform wire (.releaseOf q')) p P (Told D a op p₀ P₀) := by
  obtain ⟨k, i⟩ := q
  obtain ⟨k', j⟩ := q'
  rcases kind with rfl | rfl <;> rcases kind' with rfl | rfl <;>
    exact handed t finds makes id id (fun _ => rfl) fun _ => rfl

end

/-- Texts are taken one after the other, up to the first slot that is empty. -/
theorem gather (slots : List Nat) (slot : Nat → Nat) : ∀ {p P : Plain}, Tandem D a (a.Touches op p₀) p₀ P₀ p P →
    (∀ i ∈ slots, Finds D a (a.Touches op p₀) p P ⟨.texts, i⟩ ⟨.texts, slot i⟩) →
      Lockstep (Plain.gather slots) (Plain.gather (slots.map slot)) p P fun x p y P =>
        x = y ∧ Tandem D a (a.Touches op p₀) p₀ P₀ p P := by
  induction slots with
  | nil => intro p P t _; exact pure ⟨rfl, t⟩
  | cons i slots ih =>
    intro p P t finds
    have here := finds i List.mem_cons_self
    have same : (P.texts.get? (slot i)).map Object.text = (p.texts.get? i).map Object.text := here.same
    rw [List.map_cons, Plain.gather, Plain.gather]
    refine get ?_
    cases at_i : p.texts.get? i with
    | none =>
      have none : P.texts.get? (slot i) = none := by simpa [at_i] using same
      rw [none]
      exact pure ⟨rfl, t⟩
    | some u =>
      have some : P.texts.get? (slot i) = some u := by simpa [at_i] using same
      rw [some]
      refine take t here fun v v' alike live t' => ?_
      obtain rfl := Object.text.inj alike
      have later : ∀ j ∈ slots, Finds D a (a.Touches op p₀) _ _ ⟨.texts, j⟩ ⟨.texts, slot j⟩ := fun j mem =>
        t.finds_take here live (finds j (List.mem_cons_of_mem i mem))
      refine bind (mono (ih t' later) fun x p y P post => ?_)
      obtain ⟨rfl, t⟩ := post
      exact pure ⟨rfl, t⟩

end Lockstep

/-! ## Every operation -/

namespace Lockstep

variable {D : Holder → Prop} {a : Names} {p P : Plain}

/-- An operation that a consumer is ready for does the same to the session as to the values of its own. -/
theorem perform (wire : Wire) (m : a.Match D p P) (op : Op) (isLocal : op.Local) (own : ∀ q ∈ op.names, D q)
    (ready : a.Ready op p) :
    Lockstep (Plain.perform wire op) (Plain.perform wire (op.at a fun k => (k.plain.of P).next)) p P
      (Told D a op p P) := by
  have t : Tandem D a (a.Touches op p) p P p P := .refl m
  have slot (q : Holder) (mem : q ∈ op.names) (uses : ¬ op.EndsOwner) : Finds D a (a.Touches op p) p P q
      ⟨q.shelf, a.slot (fun k => (k.plain.of P).next) q⟩ :=
    m.finds_slot mem (own q mem) fun live => (ready q mem live).resolve_right fun ends => uses ends.1
  have owner (q : Holder) (mem : q ∈ op.names) (kind : q.shelf = .texts ∨ q.shelf = .owned) :
      Finds D a (a.Touches op p) p P q (a.owner (fun k => (k.plain.of P).next) q) :=
    m.finds_owner mem (own q mem) kind fun live => (ready q mem live).elim (fun same => same ▸ kind) And.right
  have ownerKind {q : Holder} := a.owner_kind (fun k => (k.plain.of P).next) (q := q)
  cases op with
  | configure _ | resetLedger | markLedger | ledgerSinceMark => exact isLocal.elim
  | newText =>
    refine did t [.created] fun t => ?_
    exact told_slot (k := .texts) rfl "" t
  | textFrom u =>
    refine did t [.created] fun t => ?_
    exact told_slot (k := .texts) rfl (wire.text u) t
  | readText i _ | hashText i | compareWithText i _ =>
    exact peek (slot ⟨.texts, i⟩ List.mem_cons_self id) fun v _ => told t rfl
  | editText i via edits =>
    have here := slot ⟨.texts, i⟩ List.mem_cons_self id
    refine peek here fun u live => ?_
    exact put t here live _ fun t => told t rfl
  | compareTexts i j =>
    refine peek (slot ⟨.texts, i⟩ List.mem_cons_self id) fun u _ => ?_
    exact peek (slot ⟨.texts, j⟩ (by simp [Op.names]) id) fun u' _ => told t rfl
  | dropText i =>
    exact dropOf t (owner ⟨.texts, i⟩ List.mem_cons_self (.inl rfl)) (.inl rfl) (ownerKind (.inl rfl)) wire
  | dropOwned i =>
    exact dropOf t (owner ⟨.owned, i⟩ List.mem_cons_self (.inr rfl)) (.inr rfl) (ownerKind (.inr rfl)) wire
  | releaseText i =>
    exact releaseOf t (owner ⟨.texts, i⟩ List.mem_cons_self (.inl rfl)) (.inl rfl) (ownerKind (.inl rfl)) wire rfl
  | releaseOwned i =>
    exact releaseOf t (owner ⟨.owned, i⟩ List.mem_cons_self (.inr rfl)) (.inr rfl) (ownerKind (.inr rfl)) wire rfl
  | adoptText i =>
    exact handed t (slot ⟨.released, i⟩ List.mem_cons_self id) (k := .texts) rfl id id (fun _ => rfl) fun _ => rfl
  | adoptOwned i =>
    exact handed t (slot ⟨.released, i⟩ List.mem_cons_self id) (k := .owned) rfl id id (fun _ => rfl) fun _ => rfl
  | freeReleased i => exact freed t (slot ⟨.released, i⟩ List.mem_cons_self id)
  | countDistinct slots =>
    have texts (i : Nat) (mem : i ∈ slots) := slot ⟨.texts, i⟩ (by simp [Op.names, mem]) id
    refine bind (mono (gather slots _ t texts) fun x p y P post => ?_)
    obtain ⟨rfl, t⟩ := post
    refine did t _ fun t => told t ?_
    split <;> rfl
  | readOwned i => exact peek (slot ⟨.owned, i⟩ List.mem_cons_self id) fun v _ => told t rfl
  | editOwned i edits =>
    have here := slot ⟨.owned, i⟩ List.mem_cons_self id
    refine peek here fun u live => ?_
    exact put t here live _ fun t => told t rfl
  | newVector e =>
    refine did t [.vectorMade] fun t => ?_
    exact told_slot (k := .vectors) rfl ⟨e, []⟩ t
  | collectVector e xs =>
    refine did t _ fun t => ?_
    exact told_slot (k := .vectors) rfl ⟨e, xs.map (wire.item e)⟩ t
  | push v x | directPush v x =>
    obtain ⟨e, x⟩ := x
    have here := slot ⟨.vectors, v⟩ List.mem_cons_self id
    refine itemsOf here fun xs live => ?_
    refine put t here live ⟨e, xs ++ [wire.item e x]⟩ fun t => ?_
    exact did t _ fun t => told t rfl
  | pushText v i =>
    have vector := slot ⟨.vectors, v⟩ List.mem_cons_self id
    have text := slot ⟨.texts, i⟩ (by simp [Op.names]) id
    refine itemsOf vector fun ts live => ?_
    refine take t text fun u u' alike live' t' => ?_
    obtain rfl := Object.text.inj alike
    have still : ({ p with texts := p.texts.clear i } : Plain).object? ⟨.vectors, v⟩ ≠ none := live
    refine put t' (t.finds_take text live' vector) still ⟨.text, ts ++ [u']⟩ fun t => ?_
    exact did t _ fun t => told t rfl
  | extend v e ys =>
    have here := slot ⟨.vectors, v⟩ List.mem_cons_self id
    refine itemsOf here fun xs live => ?_
    refine put t here live ⟨e, xs ++ ys.map (wire.item e)⟩ fun t => ?_
    exact did t _ fun t => told t rfl
  | pop v =>
    have here := slot ⟨.vectors, v⟩ List.mem_cons_self id
    refine peek here fun ⟨e, xs⟩ live => ?_
    cases e with
    | text =>
      show Lockstep (Plain.popItem wire v .text xs) (Plain.popItem wire _ .text xs) p P _
      rw [Plain.popItem, Plain.popItem]
      split
      · exact told t rfl
      · rename_i u last
        refine put t here live ⟨.text, xs.dropLast⟩ fun t => ?_
        refine did t [.popped] fun t => ?_
        exact add t .texts u fun stepped => pure ⟨_, rfl, stepped⟩
    | scalar _ =>
      refine put t here live _ fun t => ?_
      exact told t rfl
  | get v _ | getMut v _ | vectorLen v | debugVector v | listVector v | directGet v _ | directGetMut v _
  | directLen v =>
    exact peek (slot ⟨.vectors, v⟩ List.mem_cons_self id) fun x _ => told t rfl
  | itemAt v i =>
    refine peek (slot ⟨.vectors, v⟩ List.mem_cons_self id) fun ⟨e, xs⟩ _ => ?_
    dsimp only
    split <;> exact told t rfl
  | sliceVector v =>
    refine peek (slot ⟨.vectors, v⟩ List.mem_cons_self id) fun ⟨e, xs⟩ _ => told t ?_
    cases e <;> rfl
  | dropVector v =>
    refine take t (slot ⟨.vectors, v⟩ List.mem_cons_self id) fun x x' alike live t => ?_
    obtain rfl := Shelf.object_inj alike
    exact did t _ fun t => told t rfl
  | releaseVector v =>
    exact handed t (slot ⟨.vectors, v⟩ List.mem_cons_self id) (k := .releasedVectors) rfl id id (fun _ => rfl)
      fun _ => rfl
  | adoptVector i =>
    exact handed t (slot ⟨.releasedVectors, i⟩ List.mem_cons_self id) (k := .vectors) rfl id id (fun _ => rfl)
      fun _ => rfl
  | editItem v i edits =>
    have here := slot ⟨.vectors, v⟩ List.mem_cons_self id
    refine itemsOf here fun ts live => ?_
    cases ts[i.toNat]? with
    | none => exact told t rfl
    | some u => exact put t here live _ fun t => told t rfl
  | readItem v _ | compareItems v _ _ =>
    exact itemsOf (slot ⟨.vectors, v⟩ List.mem_cons_self id) fun ts _ => told t rfl
  | walk v steps =>
    have here := slot ⟨.vectors, v⟩ List.mem_cons_self id
    refine peek here fun ⟨e, xs⟩ live => ?_
    refine put t here live _ fun t => ?_
    exact did t _ fun t => told t rfl
  | directPop v =>
    have here := slot ⟨.vectors, v⟩ List.mem_cons_self id
    refine peek here fun ⟨e, xs⟩ live => ?_
    refine put t here live ⟨e, xs.dropLast⟩ fun t => ?_
    exact did t _ fun t => told t rfl

end Lockstep

/-- An operation on named slots is told what the consumer would be told alone, with the names there are after
    it, and has done the same. -/
theorem Names.Match.step {D : Holder → Prop} {a : Names} {p P : Plain} (wire : Wire) (m : a.Match D p P) {op : Op}
    (isLocal : op.Local) (own : ∀ q ∈ op.names, D q) (ready : a.Ready op p) :
    Told D a op p P (p.step wire op).1 (p.step wire op).2
      (P.step wire (op.at a fun k => (k.plain.of P).next)).1
      (P.step wire (op.at a fun k => (k.plain.of P).next)).2 := by
  unfold Plain.step
  rcases Lockstep.perform wire m op isLocal own ready with ⟨x, p', y, P', run, Run, told⟩ | ⟨why, run, Run⟩
  · rw [run, Run]
    exact told
  · rw [run, Run]
    exact ⟨a, rfl, (Tandem.refl m).stepped⟩

/-! ## In a session -/

/-- The slots that are made next. -/
def Session.nexts (s : Session) (k : Shelf) : Nat := (k.table.of s).next

/-- Every slot is called what it is. -/
def Names.own (s : Session) : Names := ⟨s.nexts, id⟩

/-- One operation of a consumer that has names for its slots. -/
def Session.stepBy (s : Session) (a : Names) (op : Op) : Except Fault (Answer × Names × Session) := do
  let (answer, s') ← s.step (op.at a s.nexts)
  let (answer, a) := a.hear op answer
  .ok (answer, a, s')

theorem Represents.nexts {s : Session} {P : Plain} (rep : Represents s s.store.world P) :
    s.nexts = fun k => (k.plain.of P).next := funext rep.next

/-- Before anything has happened, the session's values are the consumer's. -/
theorem Names.own_match {s : Session} {p : Plain} (rep : Represents s s.store.world p) {D : Holder → Prop}
    (toCome : ∀ q, s.nexts q.shelf ≤ q.slot → D q) : (Names.own s).Match D p p where
  next := rep.next
  inside q made := (rep.next q.shelf) ▸ made
  same _ _ _ := rfl
  single _ _ _ _ _ _ same := same
  toCome := toCome

/-- The session does and answers what the consumer's own values would. -/
theorem Names.Match.stepBy {D : Holder → Prop} {a : Names} {p P : Plain} {s : Session} {op : Op} (m : a.Match D p P)
    (rep : Represents s s.store.world P) (isLocal : op.Local) (own : ∀ q ∈ op.names, D q) (ready : a.Ready op p) :
    ∃ a' s' P', s.stepBy a op = .ok ((p.step .words op).1, a', s') ∧ Represents s' s'.store.world P' ∧
      Stepped D a (a.Touches op p) p P a' (p.step .words op).2 P' := by
  obtain ⟨a', heard, st⟩ := m.step .words isLocal own ready
  obtain ⟨s', step, rep'⟩ := step_represents rep (op.at a s.nexts)
  rw [rep.nexts] at step rep'
  refine ⟨a', s', _, ?_, rep', st⟩
  simp only [Session.stepBy, rep.nexts, step, heard, bind, Except.bind]

/-! ## Names after an operation -/

namespace Stepped

variable {D T : Holder → Prop} {a a' : Names} {p₀ P₀ p P : Plain} (st : Stepped D a T p₀ P₀ a' p P)

include st

theorem nexts_le (k : Shelf) : (k.plain.of P₀).next ≤ (k.plain.of P).next := by
  rcases st.grown with ⟨-, same⟩ | ⟨k', -, next⟩
  · exact Nat.le_of_eq (same k).symm
  · rw [next]
    split
    · rename_i e
      rw [e]
      omega
    · exact Nat.le_refl _

theorem names_le (k : Shelf) : a.next k ≤ a'.next k := by
  rcases st.grown with ⟨rfl, -⟩ | ⟨k', rfl, -⟩
  · exact Nat.le_refl _
  · exact a.next_le_add ..

/-- What had a name keeps it. -/
theorem found {q : Holder} (made : q.slot < a.next q.shelf) : q.slot < a'.next q.shelf ∧ a'.find q = a.find q := by
  rcases st.grown with ⟨rfl, -⟩ | ⟨k, rfl, -⟩
  · exact ⟨made, rfl⟩
  · exact a.found_add k _ made

/-- What has a name had it before, or is new in the session. -/
theorem old_or_new {q : Holder} (made : q.slot < a'.next q.shelf) : q.slot < a.next q.shelf ∨
    q = ⟨q.shelf, a.next q.shelf⟩ ∧ a'.find q = ⟨q.shelf, (q.shelf.plain.of P₀).next⟩ := by
  rcases st.grown with ⟨rfl, -⟩ | ⟨k, rfl, -⟩
  · exact .inl made
  · by_cases e : q = ⟨k, a.next k⟩
    · subst e
      exact .inr ⟨rfl, if_pos rfl⟩
    · exact .inl (a.made_of_add e made)

/-- What is new in the session has a name. -/
theorem named {q : Holder} (made : q.slot < (q.shelf.plain.of P).next) (new : (q.shelf.plain.of P₀).next ≤ q.slot) :
    ∃ q', a.next q'.shelf ≤ q'.slot ∧ q'.slot < a'.next q'.shelf ∧ a'.find q' = q := by
  rcases st.grown with ⟨-, same⟩ | ⟨k, rfl, next⟩
  · rw [same] at made
    omega
  · rw [next] at made
    split at made
    · rename_i shelf
      have slot : q.slot = (k.plain.of P₀).next := by
        rw [shelf] at new
        omega
      refine ⟨⟨k, a.next k⟩, Nat.le_refl _, ?_, ?_⟩
      · simp [Names.add]
      · rw [Holder.eq_of_parts shelf slot]
        exact if_pos rfl
    · omega

end Stepped

/-- Values whose slots were left alone are still there. -/
theorem Names.Match.of_frame {D : Holder → Prop} {a : Names} {p P P' : Plain} (m : a.Match D p P)
    (nexts : ∀ k : Shelf, (k.plain.of P).next ≤ (k.plain.of P').next)
    (frame : ∀ q, D q → q.slot < a.next q.shelf → P'.object? (a.find q) = P.object? (a.find q)) : a.Match D p P' where
  next := m.next
  inside q made := Nat.lt_of_lt_of_le (m.inside q made) (nexts _)
  same q own made := (frame q own made).trans (m.same q own made)
  single := m.single
  toCome := m.toCome

end Custody
