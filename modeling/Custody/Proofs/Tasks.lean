/-
  Custody.Proofs.Tasks — what the tasks of the command line come to.

  Every task ends without a fault. What it reports (`Task.report`) and what the ledger counts on the way
  (`Task.events`) are functions of the task alone, and so is all that is printed but for the form of the
  ledger (`Invocation.run_eq`).
-/
import Custody.Command.Run
import Custody.Proofs.Walks

namespace Custody.Command

/-- The numbers that a vector shows and their sum, if there is one. -/
def summed (slice : List Primitive.i64.Value) : Except TaskError (List Primitive.i64.Value × Int) :=
  match sumFrom 0 slice with
  | some sum => .ok (slice, sum)
  | none => .error (.sumOverflow slice.length)

/-- What a task reports, and whether the ledger comes after it. -/
def Task.report (wire : Wire) : Task → Except TaskError (String × Bool)
  | .lifo values =>
    .ok (lifoReport (UInt64.ofNat values.length) ((values.map wire.text).reverse.map wire.text), true)
  | .trim values =>
    let texts := (values.map wire.text).take (wire.count values.length)
    .ok (trimReport (texts.map fun t => wire.text (Text.trim t)), true)
  | .numbers values =>
    (summed (values.take (wire.count values.length))).map fun r => (numbersReport r.1 r.2, true)
  | .abi type => (declarations type).map (·, false)

/-- What the ledger counts while a task runs. -/
def Task.events : Task → List Event
  | .lifo values =>
    .vectorAlloc :: (values.flatMap fun _ => Element.text.pushEvents) ++
      (values.reverse.flatMap fun _ => [.textAlloc, .textFree]) ++ [.vectorFree 0]
  | .trim values =>
    .vectorAlloc :: (values.flatMap fun _ => Element.text.pushEvents) ++ [.vectorFree (UInt64.ofNat values.length)]
  | .numbers _ => [.vectorAlloc, .vectorFree 0]
  | .abi _ => []

/-! ## Tasks -/

/-- The texts come back in reverse, and each is given back. -/
theorem wp_popAll {v : VectorOwner .text} (n : Nat) : ∀ {w : World} {ts : List String},
    w.find v.handle = some (.ofList .text ts) → ts.length < n → ∀ {Q : List String → World → Prop},
      Q (ts.reverse.map Wire.words.text)
        ((w.put v.handle (.ofList .text [])).counts (ts.reverse.flatMap fun _ => [.textAlloc, .textFree])) →
        wp (popAll v n) Q w := by
  induction n with
  | zero => intro w ts _ short; omega
  | succ n ih =>
    intro w ts live short Q post
    refine wp_bind (wp_bind (VectorCalls.wp_popText live (fun empty => ?_) fun t h last fresh => ?_))
    · obtain rfl : ts = [] := List.getLast?_eq_none_iff.mp empty
      rw [World.put_self live] at post
      exact wp_pure (wp_pure post)
    · obtain ⟨ys, rfl⟩ := List.getLast?_eq_some_iff.mp last
      rw [List.dropLast_concat]
      have ne := World.ne_of_live live fresh
      have fresh' : (w.put v.handle (.ofList .text ys)).find h = none := (World.find_put_ne ne.symm).trans fresh
      refine wp_pure (wp_bind (Place.wp_text (World.textAt_whole (World.find_put_counts ..)) ?_))
      refine wp_bind (TextOwner.wp_drop (World.find_put_counts ..) ?_)
      rw [World.drop_counts, World.drop_put, World.drop_self fresh', World.counts_counts]
      refine wp_bind (ih (World.find_put_counts ..) (by simp at short; omega) ?_)
      apply wp_pure
      rw [World.put_counts, World.put_put, World.counts_counts]
      rw [List.reverse_concat] at post
      exact post

variable {w : World}

theorem wp_lifo (values : List String) {Q : UInt64 × List String → World → Prop}
    (post : Q (UInt64.ofNat values.length, (values.map Wire.words.text).reverse.map Wire.words.text)
      (w.counts (Task.lifo values).events)) : wp (lifo values) Q w := by
  apply wp_bind
  apply VectorOwner.wp_collect
  intro v fresh
  refine wp_bind (VectorOwner.wp_len (World.find_put_counts ..) ?_)
  refine wp_bind (wp_popAll _ (World.find_put_counts ..) (by simp) ?_)
  rw [World.put_counts, World.put_put, World.counts_counts]
  refine wp_bind (VectorOwner.wp_drop (World.find_put_counts ..) ?_)
  apply wp_pure
  rw [World.drop_put_counts _ fresh, World.counts_counts, List.length_map, ← List.map_reverse, List.flatMap_map,
    List.map_reverse]
  exact post

theorem wp_trim (values : List String) {Q : List String → World → Prop}
    (post : Q (((values.map Wire.words.text).take (Wire.words.count values.length)).map fun t =>
      Wire.words.text (Text.trim t)) (w.counts (Task.trim values).events)) : wp (trim values) Q w := by
  apply wp_bind
  apply VectorOwner.wp_collect
  intro v fresh
  refine wp_bind (wp_bind (VectorOwner.wp_len (World.find_put_counts ..) ?_))
  apply wp_pure
  have looks : Cursor.Looks ((w.put v (.ofList .text (values.map (Wire.words.item .text)))).counts
      (.vectorAlloc :: values.flatMap fun _ => Element.text.pushEvents))
      Place.trimmed (fun t => Wire.words.text (Text.trim t)) (Element.text.Lends _) :=
    fun _ _ lends _ post => Place.wp_trimmed lends post
  refine wp_bind (Cursor.wp_toList (Walk.fetches (World.find_put_counts ..)) looks _ ?_)
  refine wp_bind (VectorOwner.wp_drop (World.find_put_counts ..) ?_)
  apply wp_pure
  rw [World.drop_put_counts _ fresh, World.counts_counts, Cursor.toList_holds (Cursor.holds_ofLen_take _),
    List.length_map]
  exact post

theorem wp_numbers (values : List Primitive.i64.Value)
    {Q : Except TaskError (List Primitive.i64.Value × Int) → World → Prop}
    (post : Q (summed (values.take (Wire.words.count values.length))) (w.counts (Task.numbers values).events)) :
    wp (numbers values) Q w := by
  apply wp_bind
  apply VectorOwner.wp_collect
  intro v fresh
  refine wp_bind (VectorOwner.wp_storage (World.find_put_counts ..) ?_)
  refine wp_bind (VectorOwner.wp_drop (World.find_put_counts ..) ?_)
  rw [World.drop_put_counts _ fresh, World.counts_counts]
  have same : values.map (Wire.words.item (.scalar .i64)) = values := List.map_id values
  have events : (.vectorAlloc :: values.flatMap fun _ => (Element.scalar .i64).pushEvents) ++
      [.vectorFree (VectorCalls.textsIn (.scalar .i64) values.length)] = (Task.numbers values).events := by
    simp [Element.pushEvents, Task.events, VectorCalls.textsIn]
  rw [same, events]
  unfold summed at post
  cases sum : sumFrom 0 (values.take (Wire.words.count values.length)) with
  | some _ => rw [sum] at post; exact wp_pure post
  | none => rw [sum] at post; exact wp_pure post

theorem wp_run (task : Task) {Q : Except TaskError (String × Bool) → World → Prop}
    (post : Q (task.report .words) (w.counts task.events)) : wp task.run Q w := by
  cases task with
  | lifo values => exact wp_bind (wp_lifo values (wp_pure post))
  | trim values => exact wp_bind (wp_trim values (wp_pure post))
  | numbers values =>
    refine wp_bind (wp_numbers values ?_)
    simp only [Task.report] at post
    cases sum : summed (values.take (Wire.words.count values.length)) with
    | ok r => rw [sum] at post; exact wp_pure post
    | error e => rw [sum] at post; exact wp_pure post
  | abi type => exact wp_pure post

/-! ## The program -/

/-- What an invocation leaves behind. -/
def Invocation.outcome (i : Invocation) (wire : Wire) : Outcome :=
  match i.task.report wire with
  | .error e => ⟨1, "", e.report⟩
  | .ok (report, false) => ⟨0, report, ""⟩
  | .ok (report, true) => ⟨0, report ++ ledgerText i.options.json (i.task.events.foldl .record .empty), ""⟩

theorem Invocation.run_eq (i : Invocation) : i.run = .ok (i.outcome .words) := by
  obtain ⟨result, st, run, same, told⟩ := wp_run i.task (w := i.options.store.world)
    (Q := fun result w => result = i.task.report .words ∧ w.ledger = i.task.events.foldl .record .empty) ⟨rfl, rfl⟩
    i.options.store rfl
  subst same
  have told : st.ledger = i.task.events.foldl .record .empty := told
  simp only [Invocation.run, run, bind, Except.bind, Invocation.outcome, ← told]
  rcases i.task.report .words with e | ⟨report, _ | _⟩ <;> rfl

end Custody.Command
