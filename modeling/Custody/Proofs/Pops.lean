/-
  Custody.Proofs.Pops — what pops find.

  How many texts an operation takes out of a vector can be told from the size of the vector before it, pushes and
  pops in the middle of a walk included (`Op.takes`). Its answer shows as many (`Represents.found`): a pop answers
  with a text exactly if there is one.
-/
import Custody.Proofs.Refinement
import Custody.Proofs.StepTalk

namespace Custody

/-! ## Told by what is there -/

/-- How many steps of a walk pop a text, from a vector of `n` items of type `e`. -/
def CursorStep.takes (e : Element) : Nat → List CursorStep → Nat
  | _, [] => 0
  | n, s :: rest =>
    match s.action with
    | .push ⟨e', _⟩ => takes e (if e' = e then n + 1 else n) rest
    | .pop => min (e.texts n) 1 + takes e (n - 1) rest
    | _ => takes e n rest

/-- How many pops of an operation have a text to find, where the slots hold vectors of those sizes. -/
def Op.takes (held : Nat → Option (Element × Nat)) : Op → Nat
  | .pop v | .directPop v => (held v).elim 0 fun x => min (x.1.texts x.2) 1
  | .walk v steps => (held v).elim 0 fun x => CursorStep.takes x.1 x.2 steps
  | _ => 0

/-- The type of the items of a vector, and how many there are. -/
def Object.size? : Object → Option (Element × Nat)
  | .vector e xs => some (e, xs.size)
  | .text _ => none

/-- The sizes of the vectors in slots. -/
def Session.held (s : Session) (v : Nat) : Option (Element × Nat) := (s.object? ⟨.vectors, v⟩).bind Object.size?

/-- How many pops of a run have a text to find, each in the session as it is before it. -/
def Session.takesAlong (s : Session) : List Op → Nat
  | [] => 0
  | op :: rest =>
    op.takes s.held +
      match s.step op with
      | .ok (_, s') => s'.takesAlong rest
      | .error _ => 0

/-! ## Told by the answer -/

theorem CursorStep.found_cons (s : CursorStep) (steps : List CursorStep) (y : CursorAnswer × Option UInt64)
    (ys : List (CursorAnswer × Option UInt64)) :
    (asidesAlong (s :: steps) (y :: ys)).found = (s.asides y.1).found + (asidesAlong steps ys).found := rfl

namespace Plain

section
variable (wire : Wire) {p : Plain} {v : Nat} {e : Element}

theorem found_popAsides (xs : List e.Item) :
    (e.popAsides (wire.found e xs.getLast?)).found = min (e.texts xs.length) 1 := by
  cases e with
  | text =>
    cases xs with
    | nil => rfl
    | cons x xs =>
      rw [List.getLast?_cons]
      show 1 = min (xs.length + 1) 1
      omega
  | scalar q => rfl

theorem walk_found (steps : List CursorStep) : ∀ (xs : List e.Item) (cs : Cursors),
    (CursorStep.asidesAlong steps (walk wire xs cs steps).1).found = CursorStep.takes e xs.length steps := by
  induction steps with
  | nil => intro xs cs; rfl
  | cons s steps ih =>
    intro xs cs
    have rest := ih (walkStep wire xs cs s).items (walkStep wire xs cs s).cursors
    rw [walk, CursorStep.found_cons, rest]
    obtain ⟨i, action⟩ := s
    cases action with
    | push x =>
      obtain ⟨e', x⟩ := x
      by_cases same : e' = e
      · subst same
        simp [walkStep, CursorStep.asides, CursorStep.takes, Element.pushAsides]
      · simp [walkStep, CursorStep.asides, CursorStep.takes, same, Asides.none]
    | pop =>
      rw [CursorStep.takes, ← List.length_dropLast]
      exact congrArg (· + _) (found_popAsides wire xs)
    | _ => exact Nat.zero_add _

/-- The sizes of the lists in slots. -/
def held (p : Plain) (v : Nat) : Option (Element × Nat) := (p.object? ⟨.vectors, v⟩).bind Object.size?

theorem held_eq : p.held v = (p.vectors.get? v).map fun xs => (xs.1, xs.2.length) := by
  show ((p.vectors.get? v).map fun xs => Object.ofList xs.1 xs.2).bind Object.size? = _
  cases p.vectors.get? v <;> simp [Object.ofList, Object.size?]

/-- A pop answers with a text exactly if the vector holds one. -/
theorem popItem_found (xs : List e.Item) : ∃ y p', (popItem wire v e xs).run p = .ok (y, p') ∧
    ((Op.pop v).asides y).found = min (e.texts xs.length) 1 := by
  cases e with
  | scalar q => exact ⟨_, _, rfl, rfl⟩
  | text =>
    cases last : xs.getLast? with
    | none =>
      obtain rfl := List.getLast?_eq_none_iff.mp last
      exact ⟨_, _, rfl, rfl⟩
    | some t =>
      refine ⟨_, _, by rw [popItem, last]; rfl, ?_⟩
      obtain ⟨ts, rfl⟩ := List.getLast?_eq_some_iff.mp last
      show 1 = min (ts ++ [t]).length 1
      simp

/-- An operation on the vector of a slot finds what it finds among its items, and nothing if there are none. -/
theorem found_at {op : Op} {f : AnyItems → Act Answer} {n : Element × Nat → Nat}
    (looks : perform wire op = Table.vectors.peek v >>= f) (refused : ∀ why, (op.asides (.refused why)).found = 0)
    (there : ∀ e xs, ∃ y p', (f ⟨e, xs⟩).run p = .ok (y, p') ∧ (op.asides y).found = n (e, xs.length)) :
    (op.asides (p.step wire op).1).found = (p.held v).elim 0 n := by
  rw [held_eq, step, looks, StateT.run_bind]
  cases at_v : p.vectors.get? v with
  | none =>
    rw [run_peek_none .vectors at_v]
    exact refused _
  | some x =>
    obtain ⟨e, xs⟩ := x
    obtain ⟨y, p', ran, found⟩ := there e xs
    rw [run_peek .vectors at_v]
    simp only [bind, Except.bind, ran]
    exact found

theorem step_found (op : Op) : (op.asides (p.step wire op).1).found = op.takes p.held := by
  cases op with
  | pop v => exact found_at wire rfl (fun _ => rfl) fun e xs => popItem_found wire xs
  | directPop v => exact found_at wire rfl (fun _ => rfl) fun e xs => ⟨_, _, rfl, found_popAsides wire xs⟩
  | walk v steps => exact found_at wire rfl (fun _ => rfl) fun e xs => ⟨_, _, rfl, walk_found wire steps xs _⟩
  | releaseText _ | releaseOwned _ | freeReleased _ | directPush _ _ => cases (p.step wire _).1 <;> rfl
  | _ => rfl

end

end Plain

/-- The texts that an operation finds are those that there are for it to take. -/
theorem Represents.found {s s' : Session} {p : Plain} (rep : Represents s s.store.world p) {op : Op} {y : Answer}
    (run : s.step op = .ok (y, s')) : (op.asides y).found = op.takes s.held := by
  have held : s.held = p.held := funext fun v => by rw [Session.held, rep.object?_eq, Plain.held]
  obtain ⟨s'', step, -⟩ := step_represents rep op
  obtain ⟨rfl, -⟩ := Prod.mk.inj (Except.ok.inj (step.symm.trans run))
  rw [held, Plain.step_found]

end Custody
