/-
  Custody.Proofs.QueueWalks — a walk over a vector is a walk over queues of its items.

  Cursors and queues are bound to the same numbers. A step moves a cursor as `Queue.step` changes the queue
  of its number (`Plain.walkOver_holds`), so over a vector that no step changes all answers of a walk are
  those of the queues (`walk_is_queue`), and at every point each cursor stands inside the vector, front
  before back.
-/
import Custody.Proofs.Ideal
import Custody.Proofs.Queue
import Custody.Proofs.Walks

namespace Custody

/-! ## Walks over queues -/

namespace CursorAction

/-- Whether the action leaves the vector as it is. -/
def Looks : CursorAction → Prop
  | .push _ | .pop => False
  | _ => True

/-- Whether the action takes an item from an end, if there is one. -/
def Takes : CursorAction → Prop
  | .next | .nextBack | .nth _ | .nthBack _ => True
  | _ => False

/-- Whether the action uses its cursor up. -/
def UsesUp : CursorAction → Prop
  | .count | .last | .toList | .toListRev | .toListSkipping _ => True
  | _ => False

end CursorAction

/-- Queues by the numbers of their cursors. -/
abbrev Queues (e : Element) := Slots (List e.Item)

namespace Queue

variable {e : Element}

/-- A step of queue `i`. -/
def stepAt (qs : Queues e) (i : Nat) (f : List e.Item → CursorAnswer × Queues e) : CursorAnswer × Queues e :=
  match qs.get? i with
  | none => (.refused .emptySlot, qs)
  | some q => f q

/-- A step that takes an item from queue `i`. -/
def takeAt (qs : Queues e) (i : Nat) (pop : List e.Item → Option e.Item × List e.Item) : CursorAnswer × Queues e :=
  stepAt qs i fun q => (.item e (pop q).1, qs.put i (pop q).2)

/-- A step over the items `xs`, which it leaves as they are. -/
def step (xs : List e.Item) (qs : Queues e) (i : Nat) : CursorAction → CursorAnswer × Queues e
  | .fresh => (.cursor qs.next, qs.add xs)
  | .clone => stepAt qs i fun q => (.cursor qs.next, qs.add q)
  | .next => takeAt qs i popFront
  | .nextBack => takeAt qs i popBack
  | .nth n => takeAt qs i (nth n.toNat)
  | .nthBack n => takeAt qs i (nthBack n.toNat)
  | .get k => stepAt qs i fun _ => (.item e xs[k.toNat]?, qs)
  | .len => stepAt qs i fun q => (.number (UInt64.ofNat q.length), qs)
  | .sizeHint => stepAt qs i fun q => (.sizeHint (UInt64.ofNat q.length) (UInt64.ofNat q.length), qs)
  | .count => stepAt qs i fun q => (.number (UInt64.ofNat q.length), qs.clear i)
  | .last => stepAt qs i fun q => (.item e q.getLast?, qs.clear i)
  | .toList => stepAt qs i fun q => (.items e q, qs.clear i)
  | .toListRev => stepAt qs i fun q => (.items e q.reverse, qs.clear i)
  | .toListSkipping gap => stepAt qs i fun q => (.items e (stride gap.toNat q), qs.clear i)
  | .push _ | .pop => (.done, qs)

/-- How many items the queue of a step has left. -/
def left (qs : Queues e) (i : Nat) : Option UInt64 := (qs.get? i).map fun q => UInt64.ofNat q.length

/-- The answers of a walk, each with what its queue has left, and the queues after it. -/
def run (xs : List e.Item) : Queues e → List CursorStep → List (CursorAnswer × Option UInt64) × Queues e
  | qs, [] => ([], qs)
  | qs, s :: rest =>
    let (answer, qs) := step xs qs s.cursor s.action
    let (answers, last) := run xs qs rest
    ((answer, left qs s.cursor) :: answers, last)

/-! ### Queues that are empty stay empty -/

section
variable {xs : List e.Item} {qs : Queues e} {i : Nat}

theorem length_run (steps : List CursorStep) : ∀ qs : Queues e, (run xs qs steps).1.length = steps.length := by
  induction steps with
  | nil => intro qs; rfl
  | cons s steps ih => intro qs; simp [run, ih]

theorem run_append (before after : List CursorStep) : ∀ qs : Queues e,
    run xs qs (before ++ after) =
      ((run xs qs before).1 ++ (run xs (run xs qs before).2 after).1, (run xs (run xs qs before).2 after).2) := by
  induction before with
  | nil => intro qs; rfl
  | cons s before ih => intro qs; simp [run, ih]

theorem step_takes (xs : List e.Item) (qs : Queues e) (i : Nat) {action : CursorAction} (takes : action.Takes) :
    ∃ pop, Fused pop ∧ pop [] = (none, []) ∧ step xs qs i action = takeAt qs i pop := by
  cases action with
  | next => exact ⟨_, fused_popFront, rfl, rfl⟩
  | nextBack => exact ⟨_, fused_popBack, rfl, rfl⟩
  | nth n => exact ⟨_, fused_nth n.toNat, by simp [nth, popFront], rfl⟩
  | nthBack n => exact ⟨_, fused_nthBack n.toNat, by simp [nthBack, popBack], rfl⟩
  | _ => cases takes

/-- A take that finds nothing leaves its queue empty. -/
theorem empty_of_missed {action : CursorAction} (takes : action.Takes)
    (missed : (step xs qs i action).1 = .item e none) : (step xs qs i action).2.get? i = some [] := by
  obtain ⟨pop, fused, -, same⟩ := step_takes xs qs i takes
  rw [same, takeAt, stepAt] at missed ⊢
  cases h : qs.get? i with
  | none => rw [h] at missed; cases missed
  | some q =>
    simp only [h] at missed ⊢
    have none : (pop q).1 = none := by injection missed
    rw [Slots.get?_put, if_pos ⟨rfl, Slots.lt_next_of_get? h⟩, fused q none]

theorem missed_of_empty {action : CursorAction} (takes : action.Takes) (empty : qs.get? i = some []) :
    (step xs qs i action).1 = .item e none := by
  obtain ⟨pop, -, nil, same⟩ := step_takes xs qs i takes
  rw [same, takeAt, stepAt, empty]
  simp only [nil]

/-- Another step leaves an empty queue empty, if it does not use it up. -/
theorem step_keeps_empty {j : Nat} {action : CursorAction} (empty : qs.get? i = some [])
    (keeps : j = i → ¬ action.UsesUp) : (step xs qs j action).2.get? i = some [] := by
  have here := Slots.lt_next_of_get? empty
  have kept (f : List e.Item → CursorAnswer × Queues e) (same : ∀ q, qs.get? j = some q → (f q).2.get? i = some []) :
      (stepAt qs j f).2.get? i = some [] := by
    unfold stepAt
    split
    · exact empty
    · rename_i q at_j
      exact same q at_j
  have added (q : List e.Item) : (qs.add q).get? i = some [] := by
    rw [Slots.get?_add, if_neg (by omega), empty]
  have cleared (uses : action.UsesUp) : (qs.clear j).get? i = some [] := by
    rw [Slots.get?_clear, if_neg fun same => keeps same uses, empty]
  have taken (pop : List e.Item → Option e.Item × List e.Item) (nil : pop [] = (none, [])) :
      (takeAt qs j pop).2.get? i = some [] := by
    refine kept _ fun q at_j => ?_
    rw [Slots.get?_put]
    split
    · rename_i same
      rw [same.1, empty] at at_j
      rw [← Option.some.inj at_j, nil]
    · exact empty
  cases action with
  | fresh => exact added xs
  | clone => exact kept _ fun q _ => added q
  | next => exact taken popFront rfl
  | nextBack => exact taken popBack rfl
  | nth n => exact taken (nth n.toNat) (by simp [nth, popFront])
  | nthBack n => exact taken (nthBack n.toNat) (by simp [nthBack, popBack])
  | get k => exact kept _ fun _ _ => empty
  | len => exact kept _ fun _ _ => empty
  | sizeHint => exact kept _ fun _ _ => empty
  | count => exact kept _ fun _ _ => cleared trivial
  | last => exact kept _ fun _ _ => cleared trivial
  | toList => exact kept _ fun _ _ => cleared trivial
  | toListRev => exact kept _ fun _ _ => cleared trivial
  | toListSkipping gap => exact kept _ fun _ _ => cleared trivial
  | push x => exact empty
  | pop => exact empty

theorem run_keeps_empty (steps : List CursorStep) : ∀ {qs : Queues e}, qs.get? i = some [] →
    (∀ s ∈ steps, s.cursor = i → ¬ s.action.UsesUp) → (run xs qs steps).2.get? i = some [] := by
  induction steps with
  | nil => intro qs empty _; exact empty
  | cons s steps ih =>
    intro qs empty keeps
    exact ih (step_keeps_empty empty (keeps s List.mem_cons_self)) fun s' mem => keeps s' (List.mem_cons_of_mem s mem)

/-- Once a take has found its queue empty, every later one finds nothing. -/
theorem run_fused {before between after : List CursorStep} {s s' : CursorStep} (takes : s.action.Takes)
    (takes' : s'.action.Takes) (same : s'.cursor = s.cursor)
    (keeps : ∀ t ∈ between, t.cursor = s.cursor → ¬ t.action.UsesUp)
    (missed : ((run xs qs (before ++ s :: (between ++ s' :: after))).1[before.length]?).map Prod.fst =
      some (.item e none)) :
    ((run xs qs (before ++ s :: (between ++ s' :: after))).1[before.length + (between.length + 1)]?).map Prod.fst =
      some (.item e none) := by
  rw [run_append] at missed ⊢
  rw [List.getElem?_append_right (by rw [length_run]), length_run, Nat.sub_self] at missed
  rw [List.getElem?_append_right (by rw [length_run]; omega), length_run, Nat.add_sub_cancel_left, run,
    List.getElem?_cons_succ, run_append, List.getElem?_append_right (by rw [length_run]), length_run, Nat.sub_self]
  generalize (run xs qs before).2 = qs at missed ⊢
  have empty : (step xs qs s.cursor s.action).2.get? s.cursor = some [] :=
    empty_of_missed takes (by simpa [run] using missed)
  have still : (run xs (step xs qs s.cursor s.action).2 between).2.get? s'.cursor = some [] := by
    rw [same]
    exact run_keeps_empty between empty keeps
  simpa [run] using missed_of_empty takes' still

end

end Queue

/-! ## Cursors and their queues -/

/-- Each cursor has the queue of its number before it. -/
structure Cursors.Hold {e : Element} (xs : List e.Item) (cs : Cursors) (qs : Queues e) : Prop where
  next : cs.next = qs.next
  holds : ∀ i, Option.Rel (fun c q => Cursor.Holds xs c q) (cs.get? i) (qs.get? i)

namespace Cursors.Hold

variable {e : Element} {xs : List e.Item} {cs : Cursors} {qs : Queues e}

theorem empty : Hold xs .empty .empty where
  next := rfl
  holds i := by
    rw [Slots.get?_empty, Slots.get?_empty]
    exact .none

variable (hold : Hold xs cs qs)

include hold

theorem at_some {i : Nat} {c : Cursor} (at_i : cs.get? i = some c) : ∃ q, qs.get? i = some q ∧ c.Holds xs q := by
  have rel := hold.holds i
  rw [at_i] at rel
  generalize qs.get? i = found at rel
  cases rel with
  | some holds => exact ⟨_, rfl, holds⟩

theorem at_none {i : Nat} (at_i : cs.get? i = none) : qs.get? i = none := by
  have rel := hold.holds i
  rw [at_i] at rel
  generalize qs.get? i = found at rel
  cases rel
  rfl

theorem add {c : Cursor} {q : List e.Item} (holds : c.Holds xs q) : Hold xs (cs.add c) (qs.add q) := by
  refine ⟨by simp [hold.next], fun j => ?_⟩
  rw [Slots.get?_add, Slots.get?_add, hold.next]
  split
  · exact .some holds
  · exact hold.holds j

theorem put {c : Cursor} {q : List e.Item} (i : Nat) (holds : c.Holds xs q) : Hold xs (cs.put i c) (qs.put i q) := by
  refine ⟨by simp [hold.next], fun j => ?_⟩
  rw [Slots.get?_put, Slots.get?_put, hold.next]
  split
  · exact .some holds
  · exact hold.holds j

theorem clear (i : Nat) : Hold xs (cs.clear i) (qs.clear i) := by
  refine ⟨by simp [hold.next], fun j => ?_⟩
  rw [Slots.get?_clear, Slots.get?_clear]
  split
  · exact .none
  · exact hold.holds j

theorem left (i : Nat) : Walk.left cs i = Queue.left qs i := by
  unfold Walk.left Queue.left
  cases at_i : cs.get? i with
  | none => rw [hold.at_none at_i]; rfl
  | some c =>
    obtain ⟨q, at_i', holds⟩ := hold.at_some at_i
    rw [at_i', Option.map_some, Option.map_some, holds.remaining]

/-- A step of a cursor and of its queue answer the same, if they do where they are begun. -/
theorem stepAt {i : Nat} {f : Cursor → CursorAnswer × Cursors} {g : List e.Item → CursorAnswer × Queues e}
    (same : ∀ c q, c.Holds xs q → (f c).1 = (g q).1 ∧ Hold xs (f c).2 (g q).2) :
    (Plain.stepAt cs i f).1 = (Queue.stepAt qs i g).1 ∧ Hold xs (Plain.stepAt cs i f).2 (Queue.stepAt qs i g).2 := by
  unfold Plain.stepAt Queue.stepAt
  cases at_i : cs.get? i with
  | none =>
    rw [hold.at_none at_i]
    exact ⟨rfl, hold⟩
  | some c =>
    obtain ⟨q, at_i', holds⟩ := hold.at_some at_i
    rw [at_i']
    exact same c q holds

theorem moveAt {i : Nat} {step : Cursor → Id (Option e.Item × Cursor)}
    {pop : List e.Item → Option e.Item × List e.Item} (follows : Cursor.Follows xs step pop) :
    (Plain.moveAt .ideal cs i step).1 = (Queue.takeAt qs i pop).1 ∧
      Hold xs (Plain.moveAt .ideal cs i step).2 (Queue.takeAt qs i pop).2 := by
  refine hold.stepAt fun c q holds => ?_
  obtain ⟨found, rest⟩ := follows c q holds
  refine ⟨?_, hold.put i rest⟩
  have shown : (pop q).1.map (Wire.ideal.item e) = (pop q).1 := by cases (pop q).1 <;> simp [Wire.ideal_item]
  show CursorAnswer.item e ((step c).1.map (Wire.ideal.item e)) = _
  rw [found, shown]

end Cursors.Hold

namespace Plain

variable {e : Element} {xs : List e.Item} {cs : Cursors} {qs : Queues e}

/-- A step moves cursors as it changes their queues, and answers the same. -/
theorem walkOver_holds (few : xs.length < 2 ^ 64) (hold : Cursors.Hold xs cs qs) (i : Nat) (action : CursorAction) :
    (walkOver .ideal xs cs i action).1 = (Queue.step xs qs i action).1 ∧
      Cursors.Hold xs (walkOver .ideal xs cs i action).2 (Queue.step xs qs i action).2 := by
  have map_ideal (q : List e.Item) : q.map (Wire.ideal.item e) = q := by
    rw [List.map_congr_left fun x _ => Wire.ideal_item x, List.map_id']
  have option_ideal (x : Option e.Item) : x.map (Wire.ideal.item e) = x := by cases x <;> simp [Wire.ideal_item]
  cases action with
  | fresh => exact ⟨congrArg CursorAnswer.cursor hold.next, hold.add (Cursor.holds_ofLen few)⟩
  | clone => exact hold.stepAt fun c q holds => ⟨congrArg CursorAnswer.cursor hold.next, hold.add holds⟩
  | next => exact hold.moveAt Cursor.follows_next
  | nextBack => exact hold.moveAt Cursor.follows_nextBack
  | nth n => exact hold.moveAt (Cursor.follows_nth n)
  | nthBack n => exact hold.moveAt (Cursor.follows_nthBack n)
  | get k => exact hold.stepAt fun _ _ _ => ⟨congrArg (CursorAnswer.item e) (option_ideal _), hold⟩
  | len => exact hold.stepAt fun c q holds => ⟨congrArg CursorAnswer.number holds.remaining, hold⟩
  | sizeHint =>
    exact hold.stepAt fun c q holds => ⟨congrArg (fun n => CursorAnswer.sizeHint n n) holds.remaining, hold⟩
  | count => exact hold.stepAt fun c q holds => ⟨congrArg CursorAnswer.number holds.remaining, hold.clear i⟩
  | last =>
    refine hold.stepAt fun c q holds => ⟨congrArg (CursorAnswer.item e) ?_, hold.clear i⟩
    exact (option_ideal _).trans (Cursor.last_holds holds)
  | toList =>
    refine hold.stepAt fun c q holds => ⟨congrArg (CursorAnswer.items e) ?_, hold.clear i⟩
    exact (Cursor.toList_holds holds (Wire.ideal.item e)).trans (map_ideal q)
  | toListRev =>
    refine hold.stepAt fun c q holds => ⟨congrArg (CursorAnswer.items e) ?_, hold.clear i⟩
    exact (Cursor.toListRev_holds holds (Wire.ideal.item e)).trans (map_ideal q.reverse)
  | toListSkipping gap =>
    refine hold.stepAt fun c q holds => ⟨congrArg (CursorAnswer.items e) ?_, hold.clear i⟩
    exact (Cursor.toListSkipping_holds holds (Wire.ideal.item e) gap).trans (map_ideal _)
  | push x => exact ⟨rfl, hold⟩
  | pop => exact ⟨rfl, hold⟩

/-- A walk that changes no items: its answers, and the cursors after it. -/
def stroll (xs : List e.Item) : Cursors → List CursorStep → List (CursorAnswer × Option UInt64) × Cursors
  | cs, [] => ([], cs)
  | cs, s :: rest =>
    let (answer, cs) := walkOver .ideal xs cs s.cursor s.action
    let (answers, last) := stroll xs cs rest
    ((answer, Walk.left cs s.cursor) :: answers, last)

theorem stroll_holds (few : xs.length < 2 ^ 64) (steps : List CursorStep) : ∀ {cs : Cursors} {qs : Queues e},
    Cursors.Hold xs cs qs → (stroll xs cs steps).1 = (Queue.run xs qs steps).1 ∧
      Cursors.Hold xs (stroll xs cs steps).2 (Queue.run xs qs steps).2 := by
  induction steps with
  | nil => intro cs qs hold; exact ⟨rfl, hold⟩
  | cons s steps ih =>
    intro cs qs hold
    obtain ⟨answer, hold'⟩ := walkOver_holds few hold s.cursor s.action
    obtain ⟨answers, last⟩ := ih hold'
    refine ⟨?_, last⟩
    rw [stroll, Queue.run]
    simp only [answer, answers, hold'.left]

/-- So many steps of one cursor are as many steps of the list. -/
theorem stroll_nexts (xs : List e.Item) {i : Nat} (n : Nat) : ∀ {cs : Cursors} {c : Cursor}, cs.get? i = some c →
    ∃ before, stroll xs cs (List.replicate (n + 1) ⟨i, .next⟩) =
      (before ++ [(.item e ((Cursor.nexts (fetch xs) n c).1.map (Wire.ideal.item e)),
        some (Cursor.nexts (fetch xs) n c).2.remaining)], cs.put i (Cursor.nexts (fetch xs) n c).2) := by
  induction n with
  | zero =>
    intro cs c at_i
    have here := Slots.lt_next_of_get? at_i
    refine ⟨[], ?_⟩
    simp [stroll, walkOver, moveAt, stepAt, at_i, Walk.left, Slots.get?_put, here, Cursor.nexts]
  | succ n ih =>
    intro cs c at_i
    have here := Slots.lt_next_of_get? at_i
    have at_i' : (cs.put i (c.next (fetch xs)).2).get? i = some (c.next (fetch xs)).2 := by
      rw [Slots.get?_put, if_pos ⟨rfl, here⟩]
    obtain ⟨before, rest⟩ := ih at_i'
    have step : walkOver .ideal xs cs i .next =
        (.item e ((c.next (fetch xs)).1.map (Wire.ideal.item e)), cs.put i (c.next (fetch xs)).2) := by
      simp only [walkOver, moveAt, stepAt, at_i]
    refine ⟨((walkOver .ideal xs cs i .next).1, Walk.left (cs.put i (c.next (fetch xs)).2) i) :: before, ?_⟩
    rw [List.replicate_succ, stroll, step]
    simp only
    rw [rest, Slots.put_put, Cursor.nexts]
    rfl

theorem stroll_nexts_none (xs : List e.Item) {i : Nat} (n : Nat) (at_i : cs.get? i = none) :
    ∃ before, stroll xs cs (List.replicate (n + 1) ⟨i, .next⟩) =
      (before ++ [(.refused .emptySlot, none)], cs) := by
  induction n with
  | zero => exact ⟨[], by simp [stroll, walkOver, moveAt, stepAt, at_i, Walk.left]⟩
  | succ n ih =>
    obtain ⟨before, rest⟩ := ih
    refine ⟨(.refused .emptySlot, none) :: before, ?_⟩
    rw [List.replicate_succ, stroll]
    simp only [walkOver, moveAt, stepAt, at_i, rest, Walk.left]
    rfl

/-- Leaving `n` items out and taking the next ends where `n + 1` single takes end, with their last answer. -/
theorem stroll_nth (hold : Cursors.Hold xs cs qs) (i : Nat) (n : UInt64) :
    ∃ before answer cs', stroll xs cs [⟨i, .nth n⟩] = ([answer], cs') ∧
      stroll xs cs (List.replicate (n.toNat + 1) ⟨i, .next⟩) = (before ++ [answer], cs') := by
  cases at_i : cs.get? i with
  | none =>
    obtain ⟨before, singles⟩ := stroll_nexts_none xs n.toNat at_i
    exact ⟨before, _, _, by simp [stroll, walkOver, moveAt, stepAt, at_i, Walk.left], singles⟩
  | some c =>
    obtain ⟨q, -, holds⟩ := hold.at_some at_i
    obtain ⟨before, singles⟩ := stroll_nexts xs n.toNat at_i
    have here := Slots.lt_next_of_get? at_i
    rw [← Cursor.nth_eq_nexts n.toNat holds rfl] at singles
    exact ⟨before, _, _, by simp [stroll, walkOver, moveAt, stepAt, at_i, Walk.left, Slots.get?_put, here], singles⟩

end Plain

/-! ## Walks over a vector -/

namespace Walk

variable {e : Element}

/-- A walk that also shows where its cursors end. -/
def through (v : VectorOwner e) :
    Cursors → List CursorStep → Call (List (CursorAnswer × Option UInt64) × Cursors)
  | cs, [] => pure ([], cs)
  | cs, s :: rest => do
    let (answer, cs) ← step v cs s
    let (answers, last) ← through v cs rest
    return ((answer, left cs s.cursor) :: answers, last)

/-- The same from the beginning, with one cursor at the start. -/
def throughout (v : VectorOwner e) (steps : List CursorStep) :
    Call (List (CursorAnswer × Option UInt64) × Cursors) := do
  through v (Slots.empty.add (← v.cursor)) steps

theorem run_eq_through (v : VectorOwner e) (steps : List CursorStep) :
    ∀ cs, run v cs steps = Prod.fst <$> through v cs steps := by
  induction steps with
  | nil => intro cs; simp [run, through]
  | cons s steps ih => intro cs; simp [run, through, ih]

theorem start_eq_throughout (v : VectorOwner e) (steps : List CursorStep) :
    start v steps = Prod.fst <$> throughout v steps := by
  simp [start, throughout, run_eq_through]

section
variable {v : VectorOwner e} {xs : List e.Item} {w : World} (live : w.find v.handle = some (.ofList e xs))
  (fits : ∀ x ∈ xs, e.Fits x)

include live fits

theorem wp_through (steps : List CursorStep) : (∀ s ∈ steps, s.action.Looks) →
    ∀ {cs : Cursors} {Q : List (CursorAnswer × Option UInt64) × Cursors → World → Prop},
      Q (Plain.stroll xs cs steps) w → wp (through v cs steps) Q w := by
  induction steps with
  | nil => intro _ cs Q post; exact wp_pure post
  | cons s steps ih =>
    intro looks cs Q post
    have here := looks s List.mem_cons_self
    have noPush : ∀ x, s.action ≠ .push x := fun x push => by rw [push] at here; exact here
    have noPop : s.action ≠ .pop := fun pop => by rw [pop] at here; exact here
    refine wp_bind (wp_walkOver live noPush noPop ?_)
    rw [Plain.walkOver_fits fits]
    refine wp_bind (ih (fun s' mem => looks s' (List.mem_cons_of_mem s mem)) ?_)
    exact wp_pure post

theorem wp_throughout {steps : List CursorStep} (looks : ∀ s ∈ steps, s.action.Looks)
    {Q : List (CursorAnswer × Option UInt64) × Cursors → World → Prop}
    (post : Q (Plain.stroll xs (Slots.empty.add (.ofLen (UInt64.ofNat xs.length))) steps) w) :
    wp (throughout v steps) Q w := by
  apply wp_bind
  refine wp_bind (VectorOwner.wp_len live ?_)
  apply wp_pure
  exact wp_through live fits steps looks post

end

/-- What a walk shows, and where it leaves its cursors, if the adapter is a queue of the items `xs`. -/
structure Queued (v : VectorOwner e) (xs : List e.Item) (steps : List CursorStep)
    (answers : List (CursorAnswer × Option UInt64)) (cs : Cursors) (st : Store) : Prop where
  answered : answers = (Queue.run xs (Slots.empty.add xs) steps).1
  /-- Each cursor has the items of its queue before it, and stands inside the vector. -/
  holds : Cursors.Hold xs cs (Queue.run xs (Slots.empty.add xs) steps).2
  inside : ∀ i c, cs.get? i = some c → c.front ≤ c.back ∧ c.back.toNat ≤ xs.length
  /-- From here, leaving `n` items out and taking the next answers as the last of `n + 1` single takes, and
      leaves all cursors where those leave them. -/
  nth : ∀ i (n : UInt64), ∃ before answer cs' st₁ st₂,
    (through v cs [⟨i, .nth n⟩]).run st = .ok (([answer], cs'), st₁) ∧
      (through v cs (List.replicate (n.toNat + 1) ⟨i, .next⟩)).run st = .ok ((before ++ [answer], cs'), st₂)
  /-- A take that finds nothing is followed only by takes of that cursor that find nothing. -/
  fused : ∀ before s between s' after, steps = before ++ s :: (between ++ s' :: after) →
    s.action.Takes → s'.action.Takes → s'.cursor = s.cursor →
      (∀ t ∈ between, t.cursor = s.cursor → ¬ t.action.UsesUp) →
        answers[before.length]?.map Prod.fst = some (.item e none) →
          answers[before.length + (between.length + 1)]?.map Prod.fst = some (.item e none)

end Walk

/-- Cursors over a vector that nothing changes, in any number and in any order of steps, are queues of its
    items. -/
theorem walk_is_queue {e : Element} (v : VectorOwner e) (xs : List e.Item) (few : xs.length < 2 ^ 64)
    (fits : ∀ x ∈ xs, e.Fits x) (st : Store) (live : st.heap.find? v.handle = some (.ofList e xs))
    (steps : List CursorStep) (looks : ∀ s ∈ steps, s.action.Looks) :
    ∃ answers cs st', (Walk.start v steps).run st = .ok (answers, st') ∧
      (Walk.throughout v steps).run st = .ok ((answers, cs), st') ∧ st'.world = st.world ∧
        Walk.Queued v xs steps answers cs st' := by
  obtain ⟨answered, hold⟩ := Plain.stroll_holds few steps (Cursors.Hold.empty.add (Cursor.holds_ofLen few))
  obtain ⟨r, st', run, rfl, same⟩ := Walk.wp_throughout (w := st.world) live fits looks
    (Q := fun r w' => r = Plain.stroll xs _ steps ∧ w' = st.world) ⟨rfl, rfl⟩ st rfl
  generalize Plain.stroll xs _ steps = ended at answered hold run
  obtain ⟨answers, cs⟩ := ended
  have live' : st'.world.find v.handle = some (.ofList e xs) := by rw [same]; exact live
  have walked (more : List CursorStep) (looks : ∀ s ∈ more, s.action.Looks) :
      ∃ st'', (Walk.through v cs more).run st' = .ok (Plain.stroll xs cs more, st'') := by
    obtain ⟨r, st'', run, rfl⟩ := Walk.wp_through live' fits more looks
      (Q := fun r _ => r = Plain.stroll xs cs more) rfl st' rfl
    exact ⟨st'', run⟩
  refine ⟨answers, cs, st', ?_, run, same, answered, hold, fun i c at_i => ?_, fun i n => ?_, ?_⟩
  · rw [Walk.start_eq_throughout, StateT.run_map, run]
    rfl
  · obtain ⟨q, -, holds⟩ := hold.at_some at_i
    exact ⟨holds.ordered, holds.inside⟩
  · obtain ⟨before, answer, cs', skips, singles⟩ := Plain.stroll_nth hold i n
    obtain ⟨st₁, run₁⟩ := walked [⟨i, .nth n⟩] (by simp [CursorAction.Looks])
    obtain ⟨st₂, run₂⟩ := walked (List.replicate (n.toNat + 1) ⟨i, .next⟩) (by simp [CursorAction.Looks])
    rw [skips] at run₁
    rw [singles] at run₂
    exact ⟨before, answer, cs', st₁, st₂, run₁, run₂⟩
  · rintro before s between s' after rfl takes takes' cursor keeps missed
    rw [show answers = _ from answered] at missed ⊢
    exact Queue.run_fused takes takes' cursor keeps missed

/-- For example, a cursor over three texts is sent past its end, and its clone still takes from the back. -/
theorem walk_is_queue_clone :
    ∃ st', (Walk.start (e := .text) ⟨Heap.next (.empty .growing), true⟩ [⟨0, .clone⟩, ⟨0, .nth 18446744073709551615⟩,
        ⟨1, .nextBack⟩, ⟨0, .nextBack⟩, ⟨1, .count⟩]).run
        { Store.initial with heap := Heap.allocate (.empty .growing) (.ofList .text ["a", "b", "c"]) } =
      .ok ([(.cursor 1, some 3), (.item .text none, some 0), (.item .text (some "c"), some 2),
        (.item .text none, some 0), (.number 2, none)], st') := by
  obtain ⟨answers, cs, st', run, -, -, queued⟩ := walk_is_queue (e := .text) ⟨Heap.next (.empty .growing), true⟩
    ["a", "b", "c"] (by decide) (by decide)
    { Store.initial with heap := Heap.allocate (.empty .growing) (.ofList .text ["a", "b", "c"]) }
    (by rw [Heap.find?_allocate, if_pos rfl])
    [⟨0, .clone⟩, ⟨0, .nth 18446744073709551615⟩, ⟨1, .nextBack⟩, ⟨0, .nextBack⟩, ⟨1, .count⟩]
    (by simp [CursorAction.Looks])
  have shown := queued.answered
  rw [shown] at run
  exact ⟨st', run⟩

/-- Steps by two leave every other text out, and the queue is used up. -/
example : Queue.run (e := .text) ["a", "b", "c"] (Slots.empty.add ["a", "b", "c"]) [⟨0, .toListBy 2⟩] =
    ([(.items .text ["a", "c"], none)], (Slots.empty.add ["a", "b", "c"]).clear 0) := by cbv

end Custody
