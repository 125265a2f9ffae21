/-
  Custody.Proofs.Told — what operations and their answers tell of what was done.

  How many texts were made, how many were popped and how many vectors were made can be counted from the
  outside, without a look at any state: `Op.created`, `Op.popped` and `Op.vectorsMade` count them for an
  operation by its answer. The deeds say the same (`run_told`).
-/
import Custody.Proofs.Moves

namespace Custody

/-! ## Counting from the outside -/

/-- How many texts a lookup of the store found. -/
def Element.textsFound : (e : Element) → e.Found → Nat
  | .text, some _ => 1
  | _, _ => 0

namespace CursorStep

def created (s : CursorStep) (answer : CursorAnswer) : Nat :=
  match s.action, answer with
  | .push ⟨e, _⟩, .done => e.texts 1
  | _, _ => 0

def popped (s : CursorStep) (answer : CursorAnswer) : Nat :=
  match s.action, answer with
  | .pop, .found e x => e.textsFound x
  | _, _ => 0

end CursorStep

namespace Op

/-- The texts that an operation made. -/
def created : Op → Answer → Nat
  | .newText, .slot _ | .textFrom _, .slot _ => 1
  | .collectVector e xs, .slot _ => e.texts xs.length
  | .push _ ⟨e, _⟩, .done | .directPush _ ⟨e, _⟩, .done => e.texts 1
  | .extend _ e xs, .done => e.texts xs.length
  | .walk _ steps, .walk answers => (List.zipWith (fun s answer => s.created answer.1) steps answers).sum
  | _, _ => 0

/-- The texts that an operation took out of a vector. -/
def popped : Op → Answer → Nat
  | .pop _, .poppedText (some _) => 1
  | .directPop _, .found e x => e.textsFound x
  | .walk _ steps, .walk answers => (List.zipWith (fun s answer => s.popped answer.1) steps answers).sum
  | _, _ => 0

def vectorsMade : Op → Answer → Nat
  | .newVector _, .slot _ | .collectVector _ _, .slot _ => 1
  | _, _ => 0

/-- A figure of operations, summed up over a run by its answers. -/
def sumOver (f : Op → Answer → Nat) (ops : List Op) (answers : List Answer) : Nat :=
  (List.zipWith f ops answers).sum

end Op

namespace Plain

/-- Deeds as the operation and its answer tell them. -/
def Told (op : Op) (answer : Answer) (ds : List Deed) : Prop :=
  ds.count .created = op.created answer ∧ ds.count .popped = op.popped answer ∧
    ds.count .vectorMade = op.vectorsMade answer

/-- From `p` to `p'` there were such deeds. -/
def Does (q : List Deed → Prop) (p p' : Plain) : Prop := ∃ ds, p'.deeds = p.deeds ++ ds ∧ q ds

variable {p : Plain} (wire : Wire)

theorem Does.nothing {q : List Deed → Prop} (none : q []) : Does q p p := ⟨[], (List.append_nil _).symm, none⟩

theorem count_pushDeeds (e : Element) :
    e.pushDeeds.count .created = e.texts 1 ∧ e.pushDeeds.count .popped = 0 ∧ e.pushDeeds.count .vectorMade = 0 := by
  cases e <;> exact ⟨rfl, rfl, rfl⟩

theorem count_pushAll {α : Type} (e : Element) (xs : List α) :
    (xs.flatMap fun _ => e.pushDeeds).count .created = e.texts xs.length ∧
      (xs.flatMap fun _ => e.pushDeeds).count .popped = 0 ∧
        (xs.flatMap fun _ => e.pushDeeds).count .vectorMade = 0 := by
  induction xs with
  | nil => cases e <;> exact ⟨rfl, rfl, rfl⟩
  | cons x xs ih =>
    rw [List.flatMap_cons, List.count_append, List.count_append, List.count_append, ih.1, ih.2.1, ih.2.2]
    obtain ⟨created, popped, made⟩ := count_pushDeeds e
    rw [created, popped, made]
    refine ⟨?_, rfl, rfl⟩
    cases e with
    | text => exact Nat.add_comm ..
    | scalar q => rfl

theorem count_popDeeds (e : Element) (xs : List e.Item) :
    (e.popDeeds xs).count .created = 0 ∧
      (e.popDeeds xs).count .popped = e.textsFound (wire.found e xs.getLast?) ∧
        (e.popDeeds xs).count .vectorMade = 0 := by
  cases e with
  | text =>
    cases xs with
    | nil => exact ⟨rfl, rfl, rfl⟩
    | cons x xs =>
      rw [List.getLast?_cons]
      exact ⟨rfl, rfl, rfl⟩
  | scalar q => exact ⟨rfl, rfl, rfl⟩

theorem walkStep_told {e : Element} (xs : List e.Item) (cs : Cursors) (s : CursorStep) :
    (walkStep wire xs cs s).deeds.count .created = s.created (walkStep wire xs cs s).answer ∧
      (walkStep wire xs cs s).deeds.count .popped = s.popped (walkStep wire xs cs s).answer ∧
        (walkStep wire xs cs s).deeds.count .vectorMade = 0 := by
  obtain ⟨i, action⟩ := s
  cases action with
  | push x =>
    obtain ⟨e', x⟩ := x
    unfold walkStep
    by_cases same : e' = e
    · subst same
      simp only [dite_true]
      exact count_pushDeeds e'
    · simp only [same, dite_false]
      exact ⟨rfl, rfl, rfl⟩
  | pop => exact count_popDeeds wire e xs
  | _ => exact ⟨rfl, rfl, rfl⟩

theorem walk_told {e : Element} (steps : List CursorStep) : ∀ (xs : List e.Item) (cs : Cursors) (v : Nat),
    Told (.walk v steps) (.walk (walk wire xs cs steps).1) (walk wire xs cs steps).2.2 := by
  induction steps with
  | nil => intro xs cs v; exact ⟨rfl, rfl, rfl⟩
  | cons s steps ih =>
    intro xs cs v
    obtain ⟨created, popped, made⟩ := walkStep_told wire xs cs s
    obtain ⟨created', popped', made'⟩ := ih (walkStep wire xs cs s).items (walkStep wire xs cs s).cursors v
    refine ⟨?_, ?_, ?_⟩
    · rw [walk, List.count_append, created, created']; rfl
    · rw [walk, List.count_append, popped, popped']; rfl
    · rw [walk, List.count_append, made, made']; rfl

theorem hand_told (k k' : Shelf) {i : Nat} {op : Op} (f : k.Value → k'.Value) (silent : ∀ j, Told op (.slot j) []) :
    Ends (k.plain.take i >>= fun v => k'.plain.bind (f v) >>= fun j => pure (Answer.slot j)) p
      fun y p' => Does (Told op y) p p' := by
  refine Ends.take k.plain fun v _ => Ends.add k'.plain fun j => Ends.pure ⟨[], ?_, silent j⟩
  rw [Shelf.deeds_set, Shelf.deeds_set, List.append_nil]

theorem end_told {k : Shelf} {i : Nat} {op : Op} (ds : k.Value → List Deed) (told : ∀ v, Told op .done (ds v)) :
    Ends (k.plain.take i >>= fun v => did (ds v) >>= fun _ => pure Answer.done) p
      fun y p' => Does (Told op y) p p' := by
  refine Ends.take k.plain fun v _ => Ends.modify (Ends.pure ⟨ds v, ?_, told v⟩)
  rw [Shelf.deeds_set]

theorem perform_told (op : Op) (notReset : op ≠ .resetLedger) :
    Ends (perform wire op) p fun y p' => Does (Told op y) p p' := by
  cases op with
  | configure settings => exact Ends.modify (Ends.pure (.nothing (p := p) ⟨rfl, rfl, rfl⟩))
  | resetLedger => exact absurd rfl notReset
  | markLedger => exact Ends.modify (Ends.pure (.nothing (p := p) ⟨rfl, rfl, rfl⟩))
  | ledgerSinceMark => exact Ends.get (Ends.pure (.nothing ⟨rfl, rfl, rfl⟩))
  | newText =>
    apply Ends.modify
    refine Ends.add .texts fun _ => ?_
    apply Ends.pure
    exact ⟨_, rfl, rfl, rfl, rfl⟩
  | textFrom t =>
    apply Ends.modify
    refine Ends.add .texts fun _ => ?_
    apply Ends.pure
    exact ⟨_, rfl, rfl, rfl, rfl⟩
  | readText i via => exact Ends.peek .texts fun _ _ => Ends.pure (.nothing ⟨rfl, rfl, rfl⟩)
  | editText i via edits =>
    refine Ends.peek .texts fun _ _ => ?_
    apply Ends.modify
    apply Ends.pure
    exact .nothing (p := p) ⟨rfl, rfl, rfl⟩
  | compareTexts i j =>
    refine Ends.peek .texts fun _ _ => ?_
    refine Ends.peek .texts fun _ _ => ?_
    apply Ends.pure
    exact .nothing ⟨rfl, rfl, rfl⟩
  | compareWithText i u => exact Ends.peek .texts fun _ _ => Ends.pure (.nothing ⟨rfl, rfl, rfl⟩)
  | hashText i => exact Ends.peek .texts fun _ _ => Ends.pure (.nothing ⟨rfl, rfl, rfl⟩)
  | dropText i => exact end_told (k := .texts) (fun _ => [.freed]) fun _ => ⟨rfl, rfl, rfl⟩
  | releaseText i => exact hand_told .texts .released id fun _ => ⟨rfl, rfl, rfl⟩
  | adoptText i => exact hand_told .released .texts id fun _ => ⟨rfl, rfl, rfl⟩
  | freeReleased i => exact end_told (k := .released) (fun _ => [.freed]) fun _ => ⟨rfl, rfl, rfl⟩
  | countDistinct slots =>
    refine Ends.bind (Ends.mono (gather_deeds slots) ?_)
    intro r p' same
    obtain ⟨ts, all⟩ := r
    refine Ends.modify (Ends.pure ⟨List.replicate ts.length .freed, congrArg (· ++ _) same, ?_⟩)
    have counts (d : Deed) (other : d ≠ .freed) : (List.replicate ts.length Deed.freed).count d = 0 := by
      rw [List.count_replicate, if_neg (by simpa using Ne.symm other)]
    rw [Told, counts .created (by decide), counts .popped (by decide), counts .vectorMade (by decide)]
    cases all <;> exact ⟨rfl, rfl, rfl⟩
  | adoptOwned i => exact hand_told .released .owned id fun _ => ⟨rfl, rfl, rfl⟩
  | readOwned i => exact Ends.peek .owned fun _ _ => Ends.pure (.nothing ⟨rfl, rfl, rfl⟩)
  | editOwned i edits =>
    refine Ends.peek .owned fun _ _ => ?_
    apply Ends.modify
    apply Ends.pure
    exact .nothing (p := p) ⟨rfl, rfl, rfl⟩
  | dropOwned i => exact end_told (k := .owned) (fun _ => [.freed]) fun _ => ⟨rfl, rfl, rfl⟩
  | releaseOwned i => exact hand_told .owned .released id fun _ => ⟨rfl, rfl, rfl⟩
  | newVector e =>
    apply Ends.modify
    refine Ends.add .vectors fun _ => ?_
    apply Ends.pure
    exact ⟨_, rfl, rfl, rfl, rfl⟩
  | collectVector e xs =>
    obtain ⟨created, popped, made⟩ := count_pushAll e xs
    apply Ends.modify
    refine Ends.add .vectors fun _ => ?_
    apply Ends.pure
    refine ⟨_, rfl, ?_, ?_, ?_⟩
    · rw [List.count_cons, created]; rfl
    · rw [List.count_cons, popped]; rfl
    · rw [List.count_cons, made]; rfl
  | push v x =>
    obtain ⟨e, x⟩ := x
    refine Ends.itemsOf fun _ _ => ?_
    apply Ends.modify
    apply Ends.modify
    apply Ends.pure
    exact ⟨_, rfl, count_pushDeeds e⟩
  | pushText v i =>
    refine Ends.itemsOf fun _ _ => ?_
    refine Ends.take .texts fun _ _ => ?_
    apply Ends.modify
    apply Ends.modify
    apply Ends.pure
    exact ⟨_, rfl, rfl, rfl, rfl⟩
  | extend v e ys =>
    refine Ends.itemsOf fun _ _ => ?_
    apply Ends.modify
    apply Ends.modify
    apply Ends.pure
    exact ⟨_, rfl, count_pushAll e ys⟩
  | pop v =>
    refine Ends.peek .vectors fun ⟨e, xs⟩ _ => ?_
    cases e with
    | text =>
      show Ends (popItem wire v .text xs) p _
      rw [popItem]
      split
      · exact Ends.pure (.nothing ⟨rfl, rfl, rfl⟩)
      · apply Ends.modify
        apply Ends.modify
        refine Ends.add .texts fun _ => ?_
        apply Ends.pure
        exact ⟨_, rfl, rfl, rfl, rfl⟩
    | scalar q => exact Ends.modify (Ends.pure (.nothing (p := p) ⟨rfl, rfl, rfl⟩))
  | get v i => exact Ends.peek .vectors fun _ _ => Ends.pure (.nothing ⟨rfl, rfl, rfl⟩)
  | getMut v i => exact Ends.peek .vectors fun _ _ => Ends.pure (.nothing ⟨rfl, rfl, rfl⟩)
  | itemAt v i =>
    refine Ends.peek .vectors fun ⟨e, xs⟩ _ => ?_
    dsimp only
    split <;> exact Ends.pure (.nothing ⟨rfl, rfl, rfl⟩)
  | vectorLen v => exact Ends.peek .vectors fun _ _ => Ends.pure (.nothing ⟨rfl, rfl, rfl⟩)
  | debugVector v => exact Ends.peek .vectors fun _ _ => Ends.pure (.nothing ⟨rfl, rfl, rfl⟩)
  | listVector v => exact Ends.peek .vectors fun _ _ => Ends.pure (.nothing ⟨rfl, rfl, rfl⟩)
  | sliceVector v => exact Ends.peek .vectors fun _ _ => Ends.pure (.nothing ⟨rfl, rfl, rfl⟩)
  | dropVector v =>
    exact end_told (k := .vectors) (fun xs => [.vectorEnded (xs.1.texts xs.2.length)]) fun _ => ⟨rfl, rfl, rfl⟩
  | releaseVector v => exact hand_told .vectors .releasedVectors id fun _ => ⟨rfl, rfl, rfl⟩
  | adoptVector i => exact hand_told .releasedVectors .vectors id fun _ => ⟨rfl, rfl, rfl⟩
  | editItem v i edits =>
    refine Ends.itemsOf fun ts _ => ?_
    cases ts[i.toNat]? with
    | none => exact Ends.pure (.nothing ⟨rfl, rfl, rfl⟩)
    | some t => exact Ends.modify (Ends.pure (.nothing (p := p) ⟨rfl, rfl, rfl⟩))
  | readItem v i => exact Ends.itemsOf fun _ _ => Ends.pure (.nothing ⟨rfl, rfl, rfl⟩)
  | compareItems v i j => exact Ends.itemsOf fun _ _ => Ends.pure (.nothing ⟨rfl, rfl, rfl⟩)
  | walk v steps =>
    refine Ends.peek .vectors fun ⟨_, xs⟩ _ => ?_
    apply Ends.modify
    apply Ends.modify
    apply Ends.pure
    exact ⟨_, rfl, walk_told wire steps xs _ v⟩
  | directPush v x =>
    obtain ⟨e, x⟩ := x
    refine Ends.itemsOf fun _ _ => ?_
    apply Ends.modify
    apply Ends.modify
    apply Ends.pure
    exact ⟨_, rfl, count_pushDeeds e⟩
  | directPop v =>
    refine Ends.peek .vectors fun ⟨e, xs⟩ _ => ?_
    apply Ends.modify
    apply Ends.modify
    apply Ends.pure
    exact ⟨_, rfl, count_popDeeds wire e xs⟩
  | directGet v i => exact Ends.peek .vectors fun _ _ => Ends.pure (.nothing ⟨rfl, rfl, rfl⟩)
  | directGetMut v i => exact Ends.peek .vectors fun _ _ => Ends.pure (.nothing ⟨rfl, rfl, rfl⟩)
  | directLen v => exact Ends.peek .vectors fun _ _ => Ends.pure (.nothing ⟨rfl, rfl, rfl⟩)

theorem step_told (op : Op) (notReset : op ≠ .resetLedger) :
    Does (Told op (p.step wire op).1) p (p.step wire op).2 := by
  unfold step
  cases run : (perform wire op).run p with
  | ok r => exact perform_told wire op notReset r.1 r.2 run
  | error why => cases op <;> exact .nothing ⟨rfl, rfl, rfl⟩

/-- Over a run without a reset, the deeds say what the operations and their answers tell. -/
theorem run_told (ops : List Op) : ∀ {p : Plain}, .resetLedger ∉ ops →
    (p.run wire ops).2.deeds.count .created = p.deeds.count .created + Op.sumOver Op.created ops (p.run wire ops).1 ∧
      (p.run wire ops).2.deeds.count .popped = p.deeds.count .popped + Op.sumOver Op.popped ops (p.run wire ops).1 ∧
        (p.run wire ops).2.deeds.count .vectorMade =
          p.deeds.count .vectorMade + Op.sumOver Op.vectorsMade ops (p.run wire ops).1 := by
  induction ops with
  | nil => intro p _; exact ⟨rfl, rfl, rfl⟩
  | cons op ops ih =>
    intro p noReset
    have first : op ≠ .resetLedger := fun e => noReset (by rw [e]; exact List.mem_cons_self)
    obtain ⟨ds, deeds, created, popped, made⟩ := step_told (p := p) wire op first
    obtain ⟨created', popped', made'⟩ :=
      ih (p := (p.step wire op).2) fun mem => noReset (List.mem_cons_of_mem _ mem)
    rw [deeds, List.count_append, Nat.add_assoc] at created' popped' made'
    rw [created] at created'
    rw [popped] at popped'
    rw [made] at made'
    exact ⟨created', popped', made'⟩

end Plain

end Custody
