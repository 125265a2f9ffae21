/-
  Custody.Proofs.Simulation — a session does what the plain values do.

  `Sim a b s p Q`: on session `s` action `a` ends as `b` does on the plain values `p`, both with results
  and states that `Q` relates or both with the same refusal. Never does it fault. There is one rule for
  each way to go on, and with them one lemma for each operation (`perform_sim`), from which a step and a
  run of steps follow.
-/
import Custody.Proofs.Shelves
import Custody.Proofs.Walks

namespace Custody

namespace Session

theorem call_ok {α : Type} {c : Call α} {s : Session} {x : α} {st : Store}
    (ran : c.run s.store = .ok (x, st)) : (call c).run s = .ok (x, { s with store := st }) := by
  have ran : c s.store = _ := ran
  simp only [StateT.run, call, ran]

theorem call_error {α : Type} {c : Call α} {s : Session} {f : Fault}
    (ran : c.run s.store = .error f) : (call c).run s = .error (.fault f) := by
  have ran : c s.store = _ := ran
  simp only [StateT.run, call, ran]

end Session

def Sim {α β : Type} (a : Session.Act α) (b : Plain.Act β) (s : Session) (p : Plain)
    (Q : α → β → Session → Plain → Prop) : Prop :=
  (∃ x y s' p', a.run s = .ok (x, s') ∧ b.run p = .ok (y, p') ∧ Q x y s' p') ∨
    ∃ why, a.run s = .error (.refused why) ∧ b.run p = .error why

namespace Sim

/-! ## Rules -/

section
variable {α β γ δ : Type} {a : Session.Act α} {b : Plain.Act β} {s : Session} {p : Plain}
  {Q : α → β → Session → Plain → Prop}

theorem pure {x : α} {y : β} (post : Q x y s p) : Sim (pure x) (pure y) s p Q :=
  .inl ⟨x, y, s, p, rfl, rfl, post⟩

theorem refuse {why : Refusal} : Sim (throw (.refused why)) (throw why) s p Q := .inr ⟨why, rfl, rfl⟩

theorem bind {k : α → Session.Act γ} {l : β → Plain.Act δ} {R : γ → δ → Session → Plain → Prop}
    (first : Sim a b s p fun x y s p => Sim (k x) (l y) s p R) : Sim (a >>= k) (b >>= l) s p R := by
  rcases first with ⟨x, y, s', p', ha, hb, rest⟩ | ⟨why, ha, hb⟩
  · rcases rest with ⟨x', y', s'', p'', ha', hb', post⟩ | ⟨why, ha', hb'⟩
    · refine .inl ⟨x', y', s'', p'', ?_, ?_, post⟩
      · rw [StateT.run_bind, ha]; exact ha'
      · rw [StateT.run_bind, hb]; exact hb'
    · refine .inr ⟨why, ?_, ?_⟩
      · rw [StateT.run_bind, ha]; exact ha'
      · rw [StateT.run_bind, hb]; exact hb'
  · refine .inr ⟨why, ?_, ?_⟩
    · rw [StateT.run_bind, ha]; rfl
    · rw [StateT.run_bind, hb]; rfl

/-- The plain side may go on alone. -/
theorem andThen {l : β → Plain.Act δ} {R : α → δ → Session → Plain → Prop}
    (first : Sim a b s p fun x y s p => Sim (Pure.pure x) (l y) s p R) : Sim a (b >>= l) s p R := by
  rw [← bind_pure a]
  exact bind first

theorem mono {R : α → β → Session → Plain → Prop} (h : Sim a b s p Q)
    (le : ∀ x y s p, Q x y s p → R x y s p) : Sim a b s p R := by
  rcases h with ⟨x, y, s', p', ha, hb, post⟩ | refused
  · exact .inl ⟨x, y, s', p', ha, hb, le x y s' p' post⟩
  · exact .inr refused

/-- Calls are the session's alone. -/
theorem call {c : Call γ} {k : γ → Session.Act α} {w : World} (real : s.store.world = w)
    (h : wp c (fun x w => ∀ st, st.world = w → Sim (k x) b { s with store := st } p Q) w) :
    Sim (Session.call c >>= k) b s p Q := by
  obtain ⟨x, st, hc, rest⟩ := h s.store real
  have run : (Session.call c >>= k).run s = (k x).run { s with store := st } := by
    rw [StateT.run_bind, Session.call_ok hc]
    rfl
  rcases rest st rfl with ⟨x', y, s', p', ha, hb, post⟩ | ⟨why, ha, hb⟩
  · exact .inl ⟨x', y, s', p', run.trans ha, hb, post⟩
  · exact .inr ⟨why, run.trans ha, hb⟩

omit a b s p Q in
theorem call_bind (c : Call γ) (k : γ → Call δ) :
    Session.call (c >>= k) = Session.call c >>= fun x => Session.call (k x) := by
  funext s
  show Session.call (c >>= k) s = Session.call c s >>= fun r => Session.call (k r.1) r.2
  unfold Session.call
  rw [StateT.run_bind]
  cases c.run s.store <;> rfl

/-- What the plain side writes down at once. -/
theorem modify {f : Plain → Plain} {l : Unit → Plain.Act β} (rest : Sim a (l ()) s (f p) Q) :
    Sim a (modify f >>= l) s p Q := by
  rcases rest with ⟨x, y, s', p', ha, hb, post⟩ | ⟨why, ha, hb⟩
  · exact .inl ⟨x, y, s', p', ha, hb, post⟩
  · exact .inr ⟨why, ha, hb⟩

theorem get {k : Session → Session.Act α} {l : Plain → Plain.Act β} (rest : Sim (k s) (l p) s p Q) :
    Sim (get >>= k) (get >>= l) s p Q := by
  rcases rest with ⟨x, y, s', p', ha, hb, post⟩ | ⟨why, ha, hb⟩
  · exact .inl ⟨x, y, s', p', ha, hb, post⟩
  · exact .inr ⟨why, ha, hb⟩

end

/-! ## Slots -/

section
variable {α β : Type} {s : Session} {w : World} {p : Plain} {Q : α → β → Session → Plain → Prop}
  (rep : Represents s w p)

include rep

theorem peek (k : Shelf) {i : Nat} {f : k.Entry → Session.Act α} {g : k.Value → Plain.Act β}
    (there : ∀ h v, (k.table.of s).get? i = some (k.entry h v) → (k.plain.of p).get? i = some v →
      w.find h = some (k.object v) → Sim (f (k.entry h v)) (g v) s p Q) :
    Sim (k.table.peek i >>= f) (k.plain.peek i >>= g) s p Q := by
  cases at_i : (k.plain.of p).get? i with
  | none =>
    refine .inr ⟨.emptySlot, ?_, ?_⟩
    · simp [Session.Table.peek, rep.absent at_i]; rfl
    · simp [Plain.Table.peek, at_i]; rfl
  | some v =>
    obtain ⟨h, entry, live⟩ := rep.value at_i
    refine bind (.inl ⟨k.entry h v, v, s, p, ?_, ?_, there h v entry at_i live⟩)
    · simp [Session.Table.peek, entry]; rfl
    · simp [Plain.Table.peek, at_i]; rfl

/-- A value that is taken has left the represented world, and its allocation with it. -/
theorem take (k : Shelf) {i : Nat} {f : k.Entry → Session.Act α} {g : k.Value → Plain.Act β}
    (there : ∀ h v, (k.plain.of p).get? i = some v → w.find h = some (k.object v) →
      Represents (k.table.set s ((k.table.of s).clear i)) (w.drop h) (k.plain.set p ((k.plain.of p).clear i)) →
      Sim (f (k.entry h v)) (g v) (k.table.set s ((k.table.of s).clear i))
        (k.plain.set p ((k.plain.of p).clear i)) Q) :
    Sim (k.table.take i >>= f) (k.plain.take i >>= g) s p Q := by
  refine bind (peek rep k fun h v entry value live => ?_)
  exact .inl ⟨k.entry h v, v, _, _, rfl, rfl, there h v value live (rep.remove entry)⟩

theorem add (k : Shelf) {h : Handle} {v : k.Value} (fresh : w.find h = none)
    {f : Nat → Session.Act α} {g : Nat → Plain.Act β}
    (rest : ∀ i, Represents (k.table.set s ((k.table.of s).add (k.entry h v))) (w.put h (k.object v))
        (k.plain.set p ((k.plain.of p).add v)) →
      Sim (f i) (g i) (k.table.set s ((k.table.of s).add (k.entry h v))) (k.plain.set p ((k.plain.of p).add v)) Q) :
    Sim (k.table.bind (k.entry h v) >>= f) (k.plain.bind v >>= g) s p Q := by
  refine bind (.inl ⟨_, _, _, _, rfl, rfl, ?_⟩)
  rw [← rep.next k]
  exact rest _ (rep.add k fresh v)

theorem vectorOf {e : Element} {v : Nat} {f : VectorOwner e → Session.Act α} {g : List e.Item → Plain.Act β}
    (there : ∀ h (xs : List e.Item), s.vectors.get? v = some ⟨e, .adopt e h⟩ →
      p.vectors.get? v = some ⟨e, xs⟩ →
      w.find h = some (.ofList e xs) → Sim (f (.adopt e h)) (g xs) s p Q) :
    Sim (Session.vectorOf e v >>= f) (Plain.itemsOf e v >>= g) s p Q := by
  refine bind (peek rep .vectors fun h ⟨e', xs⟩ entry value live => ?_)
  by_cases same : e' = e
  · subst same
    show Sim (if same : e' = e' then Pure.pure (same ▸ VectorOwner.adopt e' h) else throw _)
      (if same : e' = e' then Pure.pure (same ▸ xs) else throw _) s p _
    simp only [dite_true]
    exact pure (there h xs entry value live)
  · show Sim (if same : e' = e then Pure.pure (same ▸ VectorOwner.adopt e' h) else throw _)
      (if same : e' = e then Pure.pure (same ▸ xs) else throw _) s p _
    simp only [same, dite_false]
    exact refuse

theorem textVector {v : Nat} {f : VectorOwner .text → Session.Act α} {g : List String → Plain.Act β}
    (there : ∀ h (ts : List String), s.vectors.get? v = some ⟨.text, .adopt .text h⟩ →
      p.vectors.get? v = some ⟨.text, ts⟩ → w.find h = some (.ofList .text ts) →
      Sim (f (.adopt .text h)) (g ts) s p Q) :
    Sim (Session.textVector v >>= f) (Plain.itemsOf .text v >>= g) s p Q := by
  refine bind (peek rep .vectors fun h ⟨e, xs⟩ entry value live => ?_)
  cases e with
  | text => exact pure (there h xs entry value live)
  | scalar q => exact refuse

end

end Sim

end Custody
