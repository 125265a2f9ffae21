/-
  Custody.Proofs.ReadOnly — what only reads, and what fails, leaves everything as it was.

  Which operations only read is computed from the session (`Session.reads`): reads of every kind, edits
  without a piece to append, pops and edits that find nothing to change. However many of them follow one
  another, in whatever state that a session can be in, they leave that state but for the log (`run_reads`):
  the same objects at the same handles, held by the same slots, under the same ledger.
-/
import Custody.Proofs.Faithful
import Custody.Proofs.Looking

namespace Custody

namespace Session

variable (s : Session)

/-- The session with another log. -/
def logged (log : Array LogRecord) : Session := { s with store := { s.store with log } }

/-- How many items the vector in a slot has. -/
def size? (v : Nat) : Option Nat :=
  (s.vectors.get? v).bind fun x =>
    match s.store.heap.find? x.2.handle with
    | some (.vector _ xs) => some xs.size
    | _ => none

/-- Whether the vector in a slot has no items. -/
def vacant (v : Nat) : Bool := (s.size? v).all (· == 0)

/-- Whether the operation only reads, or finds nothing to change. -/
def reads : Op → Bool
  | .ledgerSinceMark | .readText .. | .compareTexts .. | .compareWithText .. | .hashText _ | .readOwned _ | .get ..
  | .getMut .. | .itemAt .. | .vectorLen _ | .debugVector _ | .listVector _ | .sliceVector _ | .readItem ..
  | .compareItems .. | .directGet .. | .directGetMut .. | .directLen _ => true
  | .editText _ _ edits | .editOwned _ edits => edits.isEmpty
  | .editItem v i edits => edits.isEmpty || (s.size? v).all (· ≤ i.toNat)
  | .pop v | .directPop v => s.vacant v
  | .walk v steps => steps.all fun step => step.action.readsOnly (s.vacant v)
  | _ => false

/-- The action leaves the session as it is, but for the log. -/
def Still {α : Type} (act : Act α) : Prop :=
  ∀ log x s', act.run (s.logged log) = .ok (x, s') → ∃ log', s' = s.logged log'

namespace Still

variable {s} {α β : Type}

theorem pure (x : α) : s.Still (pure x) := by
  intro log y s' run
  cases run
  exact ⟨log, rfl⟩

theorem bind {act : Act α} {k : α → Act β} (first : s.Still act) (next : ∀ x, s.Still (k x)) :
    s.Still (act >>= k) := by
  intro log y s' run
  rw [StateT.run_bind] at run
  cases run' : act.run (s.logged log) with
  | error stop => rw [run'] at run; cases run
  | ok r =>
    obtain ⟨x, s₁⟩ := r
    rw [run'] at run
    obtain ⟨log₁, rfl⟩ := first log x s₁ run'
    exact next x log₁ y s' run

/-- A call that only looks goes on with what it can find. -/
theorem call {c : Call α} {k : α → Act β} (only : ReadsOnly s.store.world c)
    (next : ∀ x, s.store.world.Gives c x → s.Still (k x)) : s.Still (Session.call c >>= k) := by
  intro log y s' run
  rw [StateT.run_bind] at run
  cases run' : c.run (s.logged log).store with
  | error f =>
    rw [call_error run'] at run
    cases run
  | ok r =>
    obtain ⟨x, st⟩ := r
    have quiet : st = { (s.logged log).store with log := st.log } := only.quiet rfl run'
    rw [call_ok run', quiet] at run
    exact next x ⟨(s.logged log).store, st, rfl, run'⟩ st.log y s' run

/-- As `call`, where it makes no difference what is found. -/
theorem look {c : Call α} {k : α → Act β} (only : ReadsOnly s.store.world c) (next : ∀ x, s.Still (k x)) :
    s.Still (Session.call c >>= k) := call only fun x _ => next x

theorem lone {c : Call α} (only : ReadsOnly s.store.world c) : s.Still (Session.call c) := by
  rw [← bind_pure (Session.call c)]
  exact look only fun x => pure x

theorem mapM {γ : Type} {f : γ → Act α} (each : ∀ x, s.Still (f x)) (xs : List γ) : s.Still (xs.mapM f) := by
  induction xs with
  | nil => exact pure []
  | cons x xs ih =>
    rw [List.mapM_cons]
    exact bind (each x) fun y => bind ih fun ys => pure (y :: ys)

theorem peek (k : Shelf) {i : Nat} {f : k.Entry → Act β}
    (there : ∀ x, (k.table.of s).get? i = some x → s.Still (f x)) : s.Still (k.table.peek i >>= f) := by
  intro log y s' run
  have same : k.table.of (s.logged log) = k.table.of s := Shelf.of_onStore k s _
  cases at_i : (k.table.of s).get? i with
  | none =>
    have refused : (k.table.peek i).run (s.logged log) = .error (.refused .emptySlot) := by
      simp [Table.peek, same, at_i]
      rfl
    rw [StateT.run_bind, refused] at run
    cases run
  | some x =>
    have found : (k.table.peek i).run (s.logged log) = .ok (x, s.logged log) := by
      simp [Table.peek, same, at_i]
      rfl
    rw [StateT.run_bind, found] at run
    exact there x at_i log y s' run

theorem textVector {v : Nat} {f : VectorOwner .text → Act β}
    (there : ∀ owner, s.vectors.get? v = some ⟨.text, owner⟩ → s.Still (f owner)) :
    s.Still (textVector v >>= f) := by
  show s.Still ((Shelf.vectors.table.peek v >>= fun x => _) >>= f)
  rw [bind_assoc]
  refine peek .vectors fun x at_v => ?_
  obtain ⟨e, owner⟩ := x
  cases e with
  | text => exact there owner at_v
  | scalar p =>
    intro log y s' run
    cases run

end Still

/-! ## Operations -/

variable {s}

/-- A vector that `vacant` finds empty has no items. -/
theorem vacant_world {v : Nat} (empty : s.vacant v) {x : AnyVector} (at_v : s.vectors.get? v = some x) :
    s.store.world.Vacant x.2.handle := by
  intro e xs live
  have live : s.store.heap.find? x.2.handle = some (.vector e xs) := live
  simpa [vacant, size?, at_v, live] using empty

theorem past_world {v : Nat} {i : UInt64} (past : (s.size? v).all (· ≤ i.toNat)) {owner : VectorOwner .text}
    (at_v : s.vectors.get? v = some ⟨.text, owner⟩) (ts : Array String)
    (live : s.store.world.find owner.handle = some (.vector .text ts)) : ts.size ≤ i.toNat := by
  have live : s.store.heap.find? owner.handle = some (.vector .text ts) := live
  simpa [size?, at_v, live] using past

theorem still_showItem {e : Element} (x : Option e.Lent) : s.Still (showItem e x) := by
  cases x with
  | none => exact .pure _
  | some x => exact .look (e.reads_look x) fun _ => .pure _

theorem still_sliceItems {e : Element} (v : VectorOwner e) : s.Still (sliceItems e v) := by
  cases e with
  | text =>
    refine .look (v.reads_get 0) fun x => ?_
    cases x with
    | none => exact .pure _
    | some first => exact .look v.reads_start fun _ => .pure _
  | scalar p =>
    exact .look v.reads_storage fun _ => .look v.reads_storageView fun _ => .look v.reads_start fun _ => .pure _

theorem still_onLoan {α : Type} {p : Option Place} {f : Place → Call α}
    (only : ∀ q, p = some q → ReadsOnly s.store.world (f q)) : s.Still (onLoan p f) := by
  cases p with
  | none => exact .pure none
  | some p =>
    show s.Still (some <$> call (f p))
    rw [map_eq_pure_bind]
    exact .look (only p rfl) fun _ => .pure _

/-- A pop from an empty vector finds nothing, and binds no slot. -/
theorem still_popItem {e : Element} {v : VectorOwner e} (empty : s.store.world.Vacant v.handle) :
    s.Still (popItem e v) := by
  cases e with
  | text =>
    refine .call (v.reads_pop empty) fun x found => ?_
    obtain ⟨h, popped, found⟩ := World.gives_bind (VectorCalls.reads_popText empty) found
    rw [VectorCalls.gives_popText empty popped] at found
    rw [World.gives_pure found]
    exact .pure _
  | scalar p => exact .look (v.reads_pop empty) fun _ => .pure _

/-- No operation that only reads does anything else. -/
theorem perform_still {op : Op} (only : s.reads op) : s.Still (perform op) := by
  cases op with
  | ledgerSinceMark =>
    intro log y s' run
    cases run
    exact ⟨log, rfl⟩
  | readText i via => exact .peek .texts fun o _ => .look (o.reach via).reads_read fun _ => .pure _
  | editText i via edits =>
    refine .peek .texts fun o _ => ?_
    obtain rfl : edits = [] := List.isEmpty_iff.mp only
    exact .look (.pure ()) fun _ => .look (Place.reads_text _) fun _ => .pure _
  | compareTexts i j =>
    exact .peek .texts fun a _ => .peek .texts fun b _ =>
      .look (Place.reads_equals _ _) fun _ => .look (Place.reads_equals _ _) fun _ => .pure _
  | compareWithText i t =>
    exact .peek .texts fun o _ =>
      .bind (.mapM (fun via => .lone ((o.reach via).reads_equalsText t)) _) fun _ => .pure _
  | hashText i => exact .peek .texts fun o _ => .look (Place.reads_storeHash _) fun _ => .pure _
  | readOwned i =>
    exact .peek .owned fun o _ => .look (Place.reads_text _) fun _ => .look (Place.reads_text _) fun _ => .pure _
  | editOwned i edits =>
    refine .peek .owned fun o _ => ?_
    obtain rfl : edits = [] := List.isEmpty_iff.mp only
    exact .look (.pure ()) fun _ => .look (Place.reads_text _) fun _ => .pure _
  | pop v => exact .peek .vectors fun x at_v => still_popItem (vacant_world only at_v)
  | get v i => exact .peek .vectors fun x _ => .look (x.2.reads_get i) fun _ => still_showItem _
  | getMut v i => exact .peek .vectors fun x _ => .look (x.2.reads_getMut i) fun _ => still_showItem _
  | itemAt v i =>
    refine .peek .vectors fun x _ => .look (x.2.reads_itemAt i) fun r => ?_
    cases r with
    | error r => exact .pure _
    | ok y => exact .look (x.1.reads_look y) fun _ => .pure _
  | vectorLen v =>
    exact .peek .vectors fun x _ => .look x.2.reads_len fun _ => .look x.2.reads_isEmpty fun _ => .pure _
  | debugVector v => exact .peek .vectors fun x _ => .look x.2.reads_debug fun _ => .pure _
  | listVector v => exact .peek .vectors fun x _ => .look x.2.reads_toList fun _ => .pure _
  | sliceVector v => exact .peek .vectors fun x _ => still_sliceItems x.2
  | editItem v i edits =>
    refine .textVector fun owner at_v => .call (owner.reads_getMut i) fun p found => ?_
    refine .bind (still_onLoan fun q lent => ?_) fun _ => .pure _
    rcases Bool.or_eq_true_iff.mp only with none_left | past
    · obtain rfl : edits = [] := List.isEmpty_iff.mp none_left
      exact .after (.pure ()) q.reads_read
    · have nothing := VectorCalls.gives_getMutText found (past_world past at_v)
      rw [nothing] at lent
      cases lent
  | readItem v i =>
    refine .textVector fun owner _ => .look (owner.reads_get i) fun p => ?_
    refine .bind (still_onLoan fun q _ => ?_) fun _ => .pure _
    exact .bind q.reads_read fun _ _ => .bind q.reads_storeHash fun _ _ => .pure _
  | compareItems v i j =>
    refine .textVector fun owner _ => .look (owner.reads_get i) fun a => .look (owner.reads_get j) fun b => ?_
    cases a with
    | none =>
      cases b with
      | none => exact .pure _
      | some q => exact .pure _
    | some p =>
      cases b with
      | none => exact .pure _
      | some q => exact .look (p.reads_equals q) fun _ => .pure _
  | walk v steps =>
    exact .peek .vectors fun x at_v =>
      .look (Walk.reads_start x.2 (fun empty => vacant_world empty at_v) only) fun _ => .pure _
  | directPop v =>
    exact .peek .vectors fun x at_v => .look (Direct.reads_pop x.1 (vacant_world only at_v)) fun _ => .pure _
  | directGet v i => exact .peek .vectors fun x _ => .look (Direct.reads_get x.1 _ i) fun _ => .pure _
  | directGetMut v i => exact .peek .vectors fun x _ => .look (Direct.reads_getMut x.1 _ i) fun _ => .pure _
  | directLen v => exact .peek .vectors fun x _ => .look (VectorCalls.reads_len x.1 _) fun _ => .pure _
  | _ => cases only

theorem step_still {op : Op} (only : s.reads op) {log : Array LogRecord} {y : Answer} {s' : Session}
    (step : (s.logged log).step op = .ok (y, s')) : ∃ log', s' = s.logged log' := by
  unfold Session.step at step
  cases run : (perform op).run (s.logged log) with
  | ok r =>
    rw [run] at step
    obtain rfl : r = (y, s') := Except.ok.inj step
    exact perform_still only log y s' run
  | error stop =>
    rw [run] at step
    cases stop with
    | refused why =>
      cases step
      exact ⟨log, rfl⟩
    | fault f => cases step

theorem run_still (ops : List Op) (only : ∀ op ∈ ops, s.reads op) : ∀ {log : Array LogRecord}
    {answers : List Answer} {s' : Session}, (s.logged log).run ops = .ok (answers, s') →
    ∃ log', s' = s.logged log' := by
  induction ops with
  | nil =>
    intro log answers s' run
    cases run
    exact ⟨log, rfl⟩
  | cons op ops ih =>
    intro log answers s' run
    obtain ⟨y, s₁, answers, step, rest, rfl⟩ := run_cons run
    obtain ⟨log₁, rfl⟩ := step_still (only op (by simp)) step
    exact ih (fun op mem => only op (by simp [mem])) rest

end Session

/-- In whatever state operations have led to, operations that only read end without a fault, and leave that
    state but for its log. So does, if it ends, every call that is put together from looking at what is
    there. -/
theorem run_reads (a : Allocator) (settings : Settings) (before : List Op) :
    ∃ answers s, (Session.startOn (.fresh a settings)).run before = .ok (answers, s) ∧
      (∀ ops : List Op, (∀ op ∈ ops, s.reads op) → ∃ answers s', s.run ops = .ok (answers, s') ∧
        s' = { s with store := { s.store with log := s'.store.log } }) ∧
      ∀ (α : Type) (c : Call α), ReadsOnly s.store.world c → ∀ x st, c.run s.store = .ok (x, st) →
        st = { s.store with log := st.log } := by
  obtain ⟨s, run, rep⟩ := start_represents a settings before
  refine ⟨_, s, run, fun ops only => ?_, fun α c only x st run => only.quiet rfl run⟩
  obtain ⟨s', run', -⟩ := run_represents ops rep
  have same : s.logged s.store.log = s := rfl
  rw [← same] at run'
  obtain ⟨log, rfl⟩ := Session.run_still ops only run'
  exact ⟨_, _, run', rfl⟩

/-- For example, lookups past the end of vectors, pops and walks that find one empty, and views of a text. -/
theorem run_reads_past_end :
    ∃ answers s, (Session.startOn (.fresh .growing .initial)).run
        [.textFrom "é ", .newVector .text, .collectVector (.scalar .u8) [7#8]] = .ok (answers, s) ∧
      ∃ answers' s', s.run [.readText 0 .exclusive, .pop 0, .directPop 0, .editItem 0 0 [.push "x"], .itemAt 1 1,
          .walk 0 [⟨0, .nthBack 3⟩, ⟨0, .pop⟩, ⟨0, .toListRev⟩], .sliceVector 1] = .ok (answers', s') ∧
        s' = { s with store := { s.store with log := s'.store.log } } := by
  obtain ⟨answers, s, run, reads, -⟩ := run_reads .growing .initial
    [.textFrom "é ", .newVector .text, .collectVector (.scalar .u8) [7#8]]
  have only : (match (Session.startOn (.fresh .growing .initial)).run
        [.textFrom "é ", .newVector .text, .collectVector (.scalar .u8) [7#8]] with
      | .ok (_, s) => [.readText 0 .exclusive, .pop 0, .directPop 0, .editItem 0 0 [.push "x"], .itemAt 1 1,
          .walk 0 [⟨0, .nthBack 3⟩, ⟨0, .pop⟩, ⟨0, .toListRev⟩], .sliceVector 1].all s.reads
      | .error _ => false) = true := by decide
  rw [run] at only
  exact ⟨answers, s, run, reads _ fun op mem => List.all_eq_true.mp only op mem⟩

end Custody
