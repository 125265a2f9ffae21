/-
  Custody.Proofs.Moves — what can happen to plain values.

  Every operation on plain values is a sequence of `Move`s (`step_moves`); only a reset of the ledger
  is left out, since it is about deeds and not about values. What holds of each move then holds of each
  operation: that no slot changes but those that the operation is about (`step_frame`), and the balances
  of `Custody.Proofs.Balance`.
-/
import Mathlib.Logic.Relation
import Custody.Proofs.Shelves

namespace Custody

/-- The slots that an operation may change, besides those that it finds empty. -/
def Op.changes : Op → List Holder
  | .editText i _ _ | .dropText i | .releaseText i => [⟨.texts, i⟩]
  | .adoptText i | .freeReleased i | .adoptOwned i => [⟨.released, i⟩]
  | .countDistinct slots => slots.map (⟨.texts, ·⟩)
  | .editOwned i _ | .dropOwned i | .releaseOwned i => [⟨.owned, i⟩]
  | .push v _ | .extend v _ _ | .pop v | .dropVector v | .releaseVector v | .editItem v _ _ | .walk v _
  | .directPush v _ | .directPop v => [⟨.vectors, v⟩]
  | .pushText v i => [⟨.vectors, v⟩, ⟨.texts, i⟩]
  | .adoptVector i => [⟨.releasedVectors, i⟩]
  | _ => []

namespace Plain

/-- One thing that happens, to no slots but those of `L` and new ones. -/
inductive Move (L : List Holder) (p : Plain) : Plain → Prop
  | noted (settings : Settings) (mark : Ledger) : Move L p { p with settings, mark }
  | made (t : String) : Move L p { p with texts := p.texts.add t, deeds := p.deeds ++ [.created] }
  /-- A text changes where it is. -/
  | rewritten {k : Shelf} {i : Nat} {v v' : k.Value} {t t' : String} (mem : ⟨k, i⟩ ∈ L)
      (at_i : (k.plain.of p).get? i = some v) (text : k.object v = .text t) (text' : k.object v' = .text t') :
      Move L p (k.plain.set p ((k.plain.of p).put i v'))
  /-- A text is given back. -/
  | freed {k : Shelf} {i : Nat} {v : k.Value} {t : String} (mem : ⟨k, i⟩ ∈ L)
      (at_i : (k.plain.of p).get? i = some v) (text : k.object v = .text t) :
      Move L p { k.plain.set p ((k.plain.of p).clear i) with deeds := p.deeds ++ [.freed] }
  /-- A value goes to another table. -/
  | handed {k k' : Shelf} {i : Nat} {v : k.Value} {v' : k'.Value} (mem : ⟨k, i⟩ ∈ L)
      (at_i : (k.plain.of p).get? i = some v) (same : k'.object v' = k.object v) :
      Move L p (k'.plain.set (k.plain.set p ((k.plain.of p).clear i))
        ((k'.plain.of (k.plain.set p ((k.plain.of p).clear i))).add v'))
  | vectorMade (e : Element) (xs : List e.Item) :
      Move L p { p with vectors := p.vectors.add ⟨e, xs⟩
                        deeds := p.deeds ++ (.vectorMade :: xs.flatMap fun _ => e.pushDeeds) }
  | vectorEnded {v : Nat} {e : Element} {xs : List e.Item} (mem : ⟨.vectors, v⟩ ∈ L)
      (at_v : p.vectors.get? v = some ⟨e, xs⟩) :
      Move L p { p with vectors := p.vectors.clear v, deeds := p.deeds ++ [.vectorEnded (e.texts xs.length)] }
  /-- Items are made and moved in. -/
  | filled {v : Nat} {e : Element} {xs : List e.Item} (mem : ⟨.vectors, v⟩ ∈ L)
      (at_v : p.vectors.get? v = some ⟨e, xs⟩) (ys : List e.Item) :
      Move L p { p with vectors := p.vectors.put v ⟨e, xs ++ ys⟩
                        deeds := p.deeds ++ ys.flatMap fun _ => e.pushDeeds }
  /-- An owned text is moved in. -/
  | movedIn {v i : Nat} {ts : List String} {t : String} (mem : ⟨.vectors, v⟩ ∈ L) (mem' : ⟨.texts, i⟩ ∈ L)
      (at_v : p.vectors.get? v = some ⟨.text, ts⟩) (at_i : p.texts.get? i = some t) :
      Move L p { p with texts := p.texts.clear i, vectors := p.vectors.put v ⟨.text, ts ++ [t]⟩
                        deeds := p.deeds ++ [.moved] }
  /-- The last text is moved out, to a slot of its own. -/
  | movedOut {v : Nat} {ts : List String} {t : String} (mem : ⟨.vectors, v⟩ ∈ L)
      (at_v : p.vectors.get? v = some ⟨.text, ts⟩) (last : ts.getLast? = some t) :
      Move L p { p with texts := p.texts.add t, vectors := p.vectors.put v ⟨.text, ts.dropLast⟩
                        deeds := p.deeds ++ [.popped] }
  /-- The last item is moved out and given back. -/
  | shortened {v : Nat} {e : Element} {xs : List e.Item} (mem : ⟨.vectors, v⟩ ∈ L)
      (at_v : p.vectors.get? v = some ⟨e, xs⟩) :
      Move L p { p with vectors := p.vectors.put v ⟨e, xs.dropLast⟩, deeds := p.deeds ++ e.popDeeds xs }
  /-- Items change, and there are no more and no fewer texts among them. -/
  | edited {v : Nat} {e : Element} {xs ys : List e.Item} (mem : ⟨.vectors, v⟩ ∈ L)
      (at_v : p.vectors.get? v = some ⟨e, xs⟩) (same : e.texts ys.length = e.texts xs.length) :
      Move L p { p with vectors := p.vectors.put v ⟨e, ys⟩ }

/-- One thing after the other. -/
abbrev Moves (L : List Holder) : Plain → Plain → Prop := Relation.ReflTransGen (Move L)

/-! ## How actions end -/

/-- If the action is not refused, it ends as `Q` says. -/
def Ends {α : Type} (act : Act α) (p : Plain) (Q : α → Plain → Prop) : Prop :=
  ∀ y p', act.run p = .ok (y, p') → Q y p'

namespace Ends

variable {α β : Type} {p : Plain} {Q : β → Plain → Prop}

theorem pure {x : β} (post : Q x p) : Ends (pure x) p Q := by
  intro y p' h
  cases h
  exact post

theorem refuse {why : Refusal} : Ends (throw why : Act β) p Q := nofun

theorem bind {act : Act α} {k : α → Act β} (first : Ends act p fun x p => Ends (k x) p Q) :
    Ends (act >>= k) p Q := by
  intro y p' h
  rw [StateT.run_bind] at h
  cases run : act.run p with
  | error why => rw [run] at h; cases h
  | ok r =>
    rw [run] at h
    exact first r.1 r.2 run y p' h

theorem mono {act : Act β} {P : β → Plain → Prop} (h : Ends act p P) (le : ∀ y p, P y p → Q y p) :
    Ends act p Q := fun y p' run => le y p' (h y p' run)

theorem modify {f : Plain → Plain} {k : Unit → Act β} (rest : Ends (k ()) (f p) Q) :
    Ends (modify f >>= k) p Q := rest

theorem get {k : Plain → Act β} (rest : Ends (k p) p Q) : Ends (get >>= k) p Q := rest

variable (t : Table α) {i : Nat}

theorem peek {k : α → Act β} (there : ∀ v, (t.of p).get? i = some v → Ends (k v) p Q) :
    Ends (t.peek i >>= k) p Q := by
  refine bind (get ?_)
  cases at_i : (t.of p).get? i with
  | none => exact refuse
  | some v => exact pure (there v at_i)

theorem take {k : α → Act β}
    (there : ∀ v, (t.of p).get? i = some v → Ends (k v) (t.set p ((t.of p).clear i)) Q) :
    Ends (t.take i >>= k) p Q := by
  refine bind (peek t fun v at_i => ?_)
  exact modify (pure (there v at_i))

theorem add {v : α} {k : Nat → Act β} (rest : ∀ i, Ends (k i) (t.set p ((t.of p).add v)) Q) :
    Ends (t.bind v >>= k) p Q := rest _

omit t in
theorem itemsOf {e : Element} {v : Nat} {k : List e.Item → Act β}
    (there : ∀ xs, p.vectors.get? v = some ⟨e, xs⟩ → Ends (k xs) p Q) : Ends (itemsOf e v >>= k) p Q := by
  refine bind (peek .vectors fun ⟨e', xs⟩ at_v => ?_)
  by_cases same : e' = e
  · subst same
    show Ends (if same : e' = e' then Pure.pure (same ▸ xs) else throw Refusal.wrongElement) p _
    simp only [dite_true]
    exact pure (there xs at_v)
  · show Ends (if same : e' = e then Pure.pure (same ▸ xs) else throw Refusal.wrongElement) p _
    simp only [same, dite_false]
    exact refuse

end Ends

/-! ## Operations are moves -/

section
variable {p : Plain} {L : List Holder}

/-- Taking texts and giving them back, the deeds written down one at a time. -/
theorem gather_moves (slots : List Nat) : ∀ {p : Plain}, (∀ i ∈ slots, ⟨.texts, i⟩ ∈ L) →
    Ends (gather slots) p fun r p' => ∀ ds, Moves L { p with deeds := ds }
      { p' with deeds := ds ++ List.replicate r.1.length .freed } := by
  induction slots with
  | nil =>
    intro p _
    exact Ends.pure fun ds => by rw [List.length_nil, List.replicate_zero, List.append_nil]
  | cons i slots ih =>
    intro p mem
    refine Ends.get ?_
    cases at_i : p.texts.get? i with
    | none => exact Ends.pure fun ds => by rw [List.length_nil, List.replicate_zero, List.append_nil]
    | some _ =>
      refine Ends.take .texts fun t at_i => ?_
      apply Ends.bind
      refine Ends.mono (ih fun j hj => mem j (List.mem_cons_of_mem _ hj)) ?_
      intro r p' rest
      refine Ends.pure fun ds => ?_
      have first : Move L { p with deeds := ds } { p with texts := p.texts.clear i, deeds := ds ++ [.freed] } :=
        .freed (k := .texts) (p := { p with deeds := ds }) (mem i List.mem_cons_self) at_i rfl
      refine .head first ?_
      have rest := rest (ds ++ [.freed])
      rw [List.append_assoc, List.singleton_append] at rest
      exact rest

theorem gather_deeds (slots : List Nat) : ∀ {p : Plain}, Ends (gather slots) p fun _ p' => p'.deeds = p.deeds := by
  induction slots with
  | nil => intro p; exact Ends.pure rfl
  | cons i slots ih =>
    intro p
    refine Ends.get ?_
    cases p.texts.get? i with
    | none => exact Ends.pure rfl
    | some _ =>
      refine Ends.take .texts fun t _ => ?_
      apply Ends.bind
      exact Ends.mono ih fun _ _ same => Ends.pure same

/-- A step of a walk is a move of its vector. -/
theorem walkStep_move (wire : Wire) {v : Nat} {e : Element} {xs : List e.Item} (mem : ⟨.vectors, v⟩ ∈ L)
    (at_v : p.vectors.get? v = some ⟨e, xs⟩) (cs : Cursors) (s : CursorStep) :
    Move L p { p with vectors := p.vectors.put v ⟨e, (walkStep wire xs cs s).items⟩
                      deeds := p.deeds ++ (walkStep wire xs cs s).deeds } := by
  have still : Move L p { p with vectors := p.vectors.put v ⟨e, xs⟩, deeds := p.deeds ++ [] } := by
    rw [List.append_nil]
    exact .edited mem at_v rfl
  obtain ⟨i, action⟩ := s
  cases action with
  | push x =>
    obtain ⟨e', x⟩ := x
    unfold walkStep
    by_cases same : e' = e
    · subst same
      simp only [dite_true]
      have filled := Move.filled (p := p) mem at_v [wire.item e' x]
      rwa [List.flatMap_cons, List.flatMap_nil, List.append_nil] at filled
    · simp only [same, dite_false]
      exact still
  | pop => exact .shortened mem at_v
  | _ => exact still

theorem walk_moves (wire : Wire) {v : Nat} {e : Element} (mem : ⟨.vectors, v⟩ ∈ L) (steps : List CursorStep) :
    ∀ {p : Plain} {xs : List e.Item} (cs : Cursors), p.vectors.get? v = some ⟨e, xs⟩ →
      Moves L p { p with vectors := p.vectors.put v ⟨e, (walk wire xs cs steps).2.1⟩
                         deeds := p.deeds ++ (walk wire xs cs steps).2.2 } := by
  induction steps with
  | nil =>
    intro p xs cs at_v
    refine .single ?_
    rw [walk, List.append_nil]
    exact .edited mem at_v rfl
  | cons s steps ih =>
    intro p xs cs at_v
    refine .head (walkStep_move wire mem at_v cs s) ?_
    have there : (p.vectors.put v ⟨e, (walkStep wire xs cs s).items⟩).get? v =
        some ⟨e, (walkStep wire xs cs s).items⟩ := by
      rw [Slots.get?_put, if_pos ⟨rfl, Slots.lt_next_of_get? at_v⟩]
    have rest := ih (p := { p with vectors := p.vectors.put v ⟨e, (walkStep wire xs cs s).items⟩
                                   deeds := p.deeds ++ (walkStep wire xs cs s).deeds })
      (walkStep wire xs cs s).cursors there
    simp only [Slots.put_put, List.append_assoc] at rest
    exact rest

/-- A value handed on. -/
theorem hand_moves (k k' : Shelf) {i : Nat} (f : k.Value → k'.Value) (same : ∀ v, k'.object (f v) = k.object v)
    (mem : ⟨k, i⟩ ∈ L) :
    Ends (k.plain.take i >>= fun v => k'.plain.bind (f v) >>= fun j => pure (Answer.slot j)) p
      fun _ p' => Moves L p p' :=
  Ends.take k.plain fun v at_i => Ends.add k'.plain fun _ => Ends.pure (.single (.handed mem at_i (same v)))

/-- A text given back. -/
theorem free_moves {k : Shelf} {i : Nat} (text : ∀ v, ∃ t, k.object v = .text t) (mem : ⟨k, i⟩ ∈ L) :
    Ends (k.plain.take i >>= fun _ => did [.freed] >>= fun _ => pure Answer.done) p fun _ p' => Moves L p p' := by
  refine Ends.take k.plain fun v at_i => ?_
  obtain ⟨t, text⟩ := text v
  have freed := Move.freed mem at_i text
  rw [← Shelf.deeds_set k p ((k.plain.of p).clear i)] at freed
  exact Ends.modify (Ends.pure (.single freed))

theorem perform_moves (wire : Wire) (op : Op) (notReset : op ≠ .resetLedger) :
    Ends (perform wire op) p fun _ p' => Moves op.changes p p' := by
  have mem {q : Holder} : q ∈ [q] := List.mem_singleton_self q
  cases op with
  | configure settings => exact Ends.modify (Ends.pure (.single (.noted settings p.mark)))
  | resetLedger => exact absurd rfl notReset
  | markLedger => exact Ends.modify (Ends.pure (.single (.noted p.settings (.ofDeeds p.deeds))))
  | ledgerSinceMark => exact Ends.get (Ends.pure .refl)
  | newText =>
    apply Ends.modify
    refine Ends.add .texts fun _ => ?_
    apply Ends.pure
    exact .single (.made _)
  | textFrom t =>
    apply Ends.modify
    refine Ends.add .texts fun _ => ?_
    apply Ends.pure
    exact .single (.made _)
  | readText i via => exact Ends.peek .texts fun _ _ => Ends.pure .refl
  | editText i via edits =>
    refine Ends.peek .texts fun _ at_i => ?_
    apply Ends.modify
    apply Ends.pure
    exact .single (.rewritten (k := .texts) mem at_i rfl rfl)
  | compareTexts i j =>
    refine Ends.peek .texts fun _ _ => ?_
    refine Ends.peek .texts fun _ _ => ?_
    apply Ends.pure
    exact .refl
  | compareWithText i u => exact Ends.peek .texts fun _ _ => Ends.pure .refl
  | hashText i => exact Ends.peek .texts fun _ _ => Ends.pure .refl
  | dropText i => exact free_moves (k := .texts) (fun t => ⟨t, rfl⟩) mem
  | releaseText i => exact hand_moves .texts .released id (fun _ => rfl) mem
  | adoptText i => exact hand_moves .released .texts id (fun _ => rfl) mem
  | freeReleased i => exact free_moves (k := .released) (fun t => ⟨t, rfl⟩) mem
  | countDistinct slots =>
    have mem : ∀ i ∈ slots, (⟨.texts, i⟩ : Holder) ∈ slots.map (⟨.texts, ·⟩) := fun i hi => List.mem_map_of_mem hi
    refine Ends.bind fun y p' run => ?_
    have moves := gather_moves slots mem y p' run p.deeds
    have same := gather_deeds slots y p' run
    refine Ends.modify (Ends.pure ?_)
    rw [same]
    exact moves
  | adoptOwned i => exact hand_moves .released .owned id (fun _ => rfl) mem
  | readOwned i => exact Ends.peek .owned fun _ _ => Ends.pure .refl
  | editOwned i edits =>
    refine Ends.peek .owned fun _ at_i => ?_
    apply Ends.modify
    apply Ends.pure
    exact .single (.rewritten (k := .owned) mem at_i rfl rfl)
  | dropOwned i => exact free_moves (k := .owned) (fun t => ⟨t, rfl⟩) mem
  | releaseOwned i => exact hand_moves .owned .released id (fun _ => rfl) mem
  | newVector e =>
    apply Ends.modify
    refine Ends.add .vectors fun _ => ?_
    apply Ends.pure
    exact .single (.vectorMade e [])
  | collectVector e xs =>
    apply Ends.modify
    refine Ends.add .vectors fun _ => ?_
    apply Ends.pure
    refine .single ?_
    have made := Move.vectorMade (L := []) (p := p) e (xs.map (wire.item e))
    rwa [List.flatMap_map] at made
  | push v x =>
    obtain ⟨e, x⟩ := x
    refine Ends.itemsOf fun xs at_v => ?_
    apply Ends.modify
    apply Ends.modify
    apply Ends.pure
    refine .single ?_
    have filled := Move.filled (p := p) mem at_v [wire.item e x]
    rwa [List.flatMap_cons, List.flatMap_nil, List.append_nil] at filled
  | pushText v i =>
    refine Ends.itemsOf fun ts at_v => ?_
    refine Ends.take .texts fun t at_i => ?_
    apply Ends.modify
    apply Ends.modify
    apply Ends.pure
    refine .single ?_
    exact .movedIn List.mem_cons_self (List.mem_cons_of_mem _ List.mem_cons_self) at_v at_i
  | extend v e ys =>
    refine Ends.itemsOf fun xs at_v => ?_
    apply Ends.modify
    apply Ends.modify
    apply Ends.pure
    refine .single ?_
    have filled := Move.filled (p := p) mem at_v (ys.map (wire.item e))
    rwa [List.flatMap_map] at filled
  | pop v =>
    refine Ends.peek .vectors fun ⟨e, xs⟩ at_v => ?_
    cases e with
    | text =>
      show Ends (popItem wire v .text xs) p _
      rw [popItem]
      split
      · exact Ends.pure .refl
      · rename_i t last
        apply Ends.modify
        apply Ends.modify
        refine Ends.add .texts fun _ => ?_
        apply Ends.pure
        exact .single (.movedOut mem at_v last)
    | scalar q => exact Ends.modify (Ends.pure (.single (.edited mem at_v rfl)))
  | get v i => exact Ends.peek .vectors fun _ _ => Ends.pure .refl
  | getMut v i => exact Ends.peek .vectors fun _ _ => Ends.pure .refl
  | itemAt v i =>
    refine Ends.peek .vectors fun ⟨e, xs⟩ _ => ?_
    dsimp only
    split <;> exact Ends.pure .refl
  | vectorLen v => exact Ends.peek .vectors fun _ _ => Ends.pure .refl
  | debugVector v => exact Ends.peek .vectors fun _ _ => Ends.pure .refl
  | listVector v => exact Ends.peek .vectors fun _ _ => Ends.pure .refl
  | sliceVector v => exact Ends.peek .vectors fun _ _ => Ends.pure .refl
  | dropVector v =>
    refine Ends.take .vectors fun ⟨_, _⟩ at_v => ?_
    apply Ends.modify
    apply Ends.pure
    exact .single (.vectorEnded mem at_v)
  | releaseVector v => exact hand_moves .vectors .releasedVectors id (fun _ => rfl) mem
  | adoptVector i => exact hand_moves .releasedVectors .vectors id (fun _ => rfl) mem
  | editItem v i edits =>
    refine Ends.itemsOf fun ts at_v => ?_
    cases ts[i.toNat]? with
    | none => exact Ends.pure .refl
    | some t => exact Ends.modify (Ends.pure (.single (.edited mem at_v (List.length_set ..))))
  | readItem v i => exact Ends.itemsOf fun _ _ => Ends.pure .refl
  | compareItems v i j => exact Ends.itemsOf fun _ _ => Ends.pure .refl
  | walk v steps =>
    refine Ends.peek .vectors fun ⟨_, _⟩ at_v => ?_
    apply Ends.modify
    apply Ends.modify
    apply Ends.pure
    exact walk_moves wire mem steps _ at_v
  | directPush v x =>
    obtain ⟨e, x⟩ := x
    refine Ends.itemsOf fun xs at_v => ?_
    apply Ends.modify
    apply Ends.modify
    apply Ends.pure
    refine .single ?_
    have filled := Move.filled (p := p) mem at_v [wire.item e x]
    rwa [List.flatMap_cons, List.flatMap_nil, List.append_nil] at filled
  | directPop v =>
    refine Ends.peek .vectors fun ⟨_, _⟩ at_v => ?_
    apply Ends.modify
    apply Ends.modify
    apply Ends.pure
    exact .single (.shortened mem at_v)
  | directGet v i => exact Ends.peek .vectors fun _ _ => Ends.pure .refl
  | directGetMut v i => exact Ends.peek .vectors fun _ _ => Ends.pure .refl
  | directLen v => exact Ends.peek .vectors fun _ _ => Ends.pure .refl

/-- Whatever an operation does is done by moves; a refusal does nothing. -/
theorem step_moves (wire : Wire) (op : Op) (notReset : op ≠ .resetLedger) :
    Moves op.changes p (p.step wire op).2 := by
  unfold step
  cases run : (perform wire op).run p with
  | ok r => exact perform_moves wire op notReset r.1 r.2 run
  | error why => exact .refl

end

/-! ## The frame -/

section
variable {p p' : Plain} {L : List Holder} {q : Holder} {o : Object}

/-- What a slot holds that a move is not about, it holds afterwards. -/
theorem Move.frame (move : Move L p p') (other : q ∉ L) (there : p.object? q = some o) : p'.object? q = some o := by
  have apart {r : Holder} (mem : r ∈ L) : q ≠ r := by
    intro e
    exact other (e ▸ mem)
  cases move with
  | noted =>
    rw [object?, Shelf.plain_of_noted]
    exact there
  | made t =>
    rw [object?_deeds { p with texts := p.texts.add t }]
    exact object?_add p .texts t there
  | rewritten mem => exact (object?_put p _ (apart mem) _).trans there
  | freed mem => rw [object?_deeds, object?_clear p _ (apart mem), there]
  | handed mem => exact object?_add _ _ _ ((object?_clear p _ (apart mem)).trans there)
  | vectorMade e xs =>
    rw [object?_deeds { p with vectors := p.vectors.add ⟨e, xs⟩ }]
    exact object?_add p .vectors ⟨e, xs⟩ there
  | @vectorEnded v _ _ mem =>
    rw [object?_deeds { p with vectors := p.vectors.clear v }]
    exact (object?_clear p .vectors (apart mem)).trans there
  | @filled v e xs mem _ ys =>
    rw [object?_deeds { p with vectors := p.vectors.put v ⟨e, xs ++ ys⟩ }]
    exact (object?_put p .vectors (apart mem) ⟨e, xs ++ ys⟩).trans there
  | @movedIn v i ts t mem mem' =>
    have taken := (object?_clear p .texts (apart mem')).trans there
    have put := (object?_put { p with texts := p.texts.clear i } .vectors (apart mem) ⟨.text, ts ++ [t]⟩).trans taken
    rw [object?_deeds { p with texts := p.texts.clear i, vectors := p.vectors.put v ⟨.text, ts ++ [t]⟩ }]
    exact put
  | @movedOut v ts t mem =>
    have put := (object?_put p .vectors (apart mem) ⟨.text, ts.dropLast⟩).trans there
    rw [object?_deeds { p with texts := p.texts.add t, vectors := p.vectors.put v ⟨.text, ts.dropLast⟩ }]
    exact object?_add { p with vectors := p.vectors.put v ⟨.text, ts.dropLast⟩ } .texts t put
  | @shortened v e xs mem =>
    rw [object?_deeds { p with vectors := p.vectors.put v ⟨e, xs.dropLast⟩ }]
    exact (object?_put p .vectors (apart mem) ⟨e, xs.dropLast⟩).trans there
  | @edited v e _ ys mem =>
    exact (object?_put p .vectors (apart mem) ⟨e, ys⟩).trans there

theorem Moves.frame (moves : Moves L p p') (other : q ∉ L) (there : p.object? q = some o) :
    p'.object? q = some o := by
  induction moves with
  | refl => exact there
  | tail _ move ih => exact move.frame other ih

/-- An operation leaves alone what other slots hold. -/
theorem step_frame (wire : Wire) (op : Op) (other : q ∉ op.changes) (there : p.object? q = some o) :
    (p.step wire op).2.object? q = some o := by
  by_cases reset : op = .resetLedger
  · subst reset
    exact (object?_deeds p []).trans there
  · exact (step_moves wire op reset).frame other there

end

end Plain

end Custody
