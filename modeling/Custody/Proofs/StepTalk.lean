/-
  Custody.Proofs.StepTalk — what operations tell the ledger and the log.

  Every operation but those on the settings and on the ledger itself works under any settings, and what it
  tells owes no more than the asides that it and its answer show (`Op.asides`): `perform_owes`, one case for
  each operation.
-/
import Custody.Proofs.Figures

namespace Custody

open Stage

/-! ## Cursors -/

namespace Cursor

variable {S E α β : Type} [Stage S] {P : Talk → Prop} [Talk.Kind P] {fetch : UInt64 → StateT S (Except E) (Option α)}

section
variable (fetches : ∀ i, Keeps P (fetch i))

include fetches

theorem keeps_next (c : Cursor) : Keeps P (c.next fetch) := by
  unfold next
  split
  · exact .pure _
  · refine .bind (fetches c.front) fun x => ?_
    cases x <;> exact .pure _

theorem keeps_nextBack (c : Cursor) : Keeps P (c.nextBack fetch) := by
  unfold nextBack
  split
  · exact .pure _
  · refine .bind (fetches (c.back - 1)) fun x => ?_
    cases x <;> exact .pure _

theorem keeps_nth (n : UInt64) (c : Cursor) : Keeps P (c.nth fetch n) := keeps_next fetches (c.skip n)

theorem keeps_skipBack (n : Nat) : ∀ c : Cursor, Keeps P (skipBack fetch n c) := by
  induction n with
  | zero => intro c; exact .pure _
  | succ n ih =>
    intro c
    refine .bind (keeps_nextBack fetches c) fun r => ?_
    obtain ⟨x, c'⟩ := r
    cases x with
    | none => exact .pure _
    | some x => exact ih c'

theorem keeps_nthBack (n : UInt64) (c : Cursor) : Keeps P (c.nthBack fetch n) := by
  refine .bind (keeps_skipBack fetches _ c) fun r => ?_
  obtain ⟨all, c'⟩ := r
  cases all with
  | true => exact keeps_nextBack fetches c'
  | false => exact .pure _

end

section
variable {step : Cursor → StateT S (Except E) (Option α × Cursor)} (steps : ∀ c, Keeps P (step c))

include steps

theorem keeps_gather {look : α → StateT S (Except E) β} (looks : ∀ x, Keeps P (look x)) (n : Nat) :
    ∀ c : Cursor, Keeps P (gather step look n c) := by
  induction n with
  | zero => intro c; exact .pure _
  | succ n ih =>
    intro c
    refine .bind (steps c) fun r => ?_
    obtain ⟨x, c'⟩ := r
    cases x with
    | none => exact .pure _
    | some x => exact .bind (looks x) fun _ => .bind (ih c') fun _ => .pure _

theorem keeps_lastOf (n : Nat) : ∀ (last : Option α) (c : Cursor), Keeps P (lastOf step n last c) := by
  induction n with
  | zero => intro last c; exact .pure _
  | succ n ih =>
    intro last c
    refine .bind (steps c) fun r => ?_
    obtain ⟨x, c'⟩ := r
    cases x with
    | none => exact .pure _
    | some x => exact ih (some x) c'

end

section
variable (fetches : ∀ i, Keeps P (fetch i))

include fetches

theorem keeps_last (c : Cursor) : Keeps P (c.last fetch) := keeps_lastOf (keeps_next fetches) _ none c

variable {look : α → StateT S (Except E) β} (looks : ∀ x, Keeps P (look x))

include looks

theorem keeps_toList (c : Cursor) : Keeps P (c.toList fetch look) := keeps_gather (keeps_next fetches) looks _ c

theorem keeps_toListRev (c : Cursor) : Keeps P (c.toListRev fetch look) :=
  keeps_gather (keeps_nextBack fetches) looks _ c

theorem keeps_toListSkipping (gap : UInt64) (c : Cursor) : Keeps P (c.toListSkipping fetch look gap) := by
  refine .bind (keeps_nth fetches 0 c) fun r => ?_
  obtain ⟨x, c'⟩ := r
  cases x with
  | none => exact .pure _
  | some x =>
    refine .bind (looks x) fun _ => ?_
    exact .bind (keeps_gather (keeps_nth fetches gap) looks _ c') fun _ => .pure _

end

end Cursor

namespace VectorOwner

variable {e : Element} (v : VectorOwner e)

theorem agrees_cursor : Agrees v.cursor := .bind (agrees_len v) fun _ => .pure _

theorem agrees_toList : Agrees v.toList :=
  .bind (agrees_cursor v) fun c => Cursor.keeps_toList (agrees_get v) (Element.agrees_look e) c

theorem agrees_debug : Agrees v.debug := .bind (agrees_toList v) fun _ => .pure _

/-- A pop of a text vector is told of by a call, and makes a text that no call is told of. -/
theorem owes_pop (v : VectorOwner .text) :
    Tells v.pop fun x t => t.Owes ⟨0, 0, 0, 1, if x.isSome then 1 else 0⟩ := by
  refine tells_bind (tells_mono (VectorCalls.owes_popText v.handle) fun h t owes => tells_pure ?_)
  rw [Talk.append_silence, Option.isSome_map]
  exact owes

theorem agrees_popScalar {p : Primitive} (v : VectorOwner (.scalar p)) : Agrees v.pop :=
  .bind (VectorCalls.agrees_popScalar p v.handle) fun _ => .pure _

end VectorOwner

/-! ## Past owners -/

namespace Direct

theorem owes_push (e : Element) (v : Handle) (x : e.Item) : Tells (push e v x) fun _ t => t.Owes e.pushAsides := by
  cases e with
  | text =>
    refine tells_bind (tells_mono (TextCalls.agrees_ofView _) fun h t even => ?_)
    exact tells_mono (VectorCalls.owes_pushText v h) fun _ t' owes => .before even owes
  | scalar p => exact VectorCalls.agrees_pushScalar p v x

theorem owes_pop (e : Element) (v : Handle) : Tells (pop e v) fun x t => t.Owes (e.popAsides x) := by
  cases e with
  | text =>
    refine tells_bind (tells_mono (VectorCalls.owes_popText v) fun h t owes => ?_)
    cases h with
    | none =>
      refine tells_pure ?_
      rw [Talk.append_silence]
      exact owes
    | some h =>
      refine tells_bind (tells_mono (Place.agrees_text (.whole h)) fun u t' even => ?_)
      refine tells_bind (tells_mono (TextCalls.owes_free h) fun _ t'' owes' => tells_pure ?_)
      rw [Talk.append_silence]
      exact owes.append (.before even owes')
  | scalar p => exact VectorCalls.agrees_popScalar p v

theorem agrees_lookAt (x : Option Place) : Agrees (lookAt x) := by
  cases x with
  | none => exact .pure none
  | some p => exact .map _ (Place.agrees_text p)

theorem agrees_get (e : Element) (v : Handle) (i : UInt64) : Agrees (get e v i) := by
  cases e with
  | text => exact .bind (VectorCalls.agrees_getText v i) agrees_lookAt
  | scalar p => exact VectorCalls.agrees_getScalar p v i

theorem agrees_getMut (e : Element) (v : Handle) (i : UInt64) : Agrees (getMut e v i) := by
  cases e with
  | text => exact .bind (VectorCalls.agrees_getMutText v i) agrees_lookAt
  | scalar p => exact VectorCalls.agrees_getMutScalar p v i

end Direct

/-! ## Walks -/

/-- What is aside of a step of a walk, by its answer. -/
def CursorStep.asides (s : CursorStep) (answer : CursorAnswer) : Asides :=
  match s.action, answer with
  | .push ⟨e, _⟩, .done => e.pushAsides
  | .pop, .found e x => e.popAsides x
  | _, _ => .none

def CursorStep.asidesAlong (steps : List CursorStep) (answers : List (CursorAnswer × Option UInt64)) : Asides :=
  .total (List.zipWith (fun s answer => s.asides answer.1) steps answers)

namespace Walk

variable {e : Element} (v : VectorOwner e)

theorem agrees_shown (x : Option e.Lent) : Agrees (shown x) := by
  cases x with
  | none => exact .pure _
  | some x => exact .bind (Element.agrees_look e x) fun _ => .pure _

theorem agrees_move {cs : Cursors} {i : Nat} {step : Cursor → Call (Option e.Lent × Cursor)}
    (steps : ∀ c, Agrees (step c)) : Agrees (move cs i step) := by
  unfold move
  cases cs.get? i with
  | none => exact .pure _
  | some c => exact .bind (steps c) fun r => .bind (agrees_shown r.1) fun _ => .pure _

/-- A step that asks something of a cursor, which it keeps or uses up. -/
theorem agrees_ask {cs after : Cursors} {i : Nat} {ask : Cursor → Call CursorAnswer} (asks : ∀ c, Agrees (ask c)) :
    Agrees (match cs.get? i with
      | none => (pure (.refused .emptySlot, cs) : Call (CursorAnswer × Cursors))
      | some c => do return (← ask c, after)) := by
  cases cs.get? i with
  | none => exact .pure _
  | some c => exact .bind (asks c) fun _ => .pure _

theorem owes_step (cs : Cursors) (s : CursorStep) : Tells (step v cs s) fun r t => t.Owes (s.asides r.1) := by
  have fetches := VectorOwner.agrees_get v
  have look := Element.agrees_look e
  obtain ⟨i, action⟩ := s
  cases action with
  | fresh => exact Keeps.bind (P := Talk.Even) (VectorOwner.agrees_cursor v) fun _ => .pure _
  | clone =>
    unfold step
    simp only
    cases cs.get? i <;> exact tells_pure Talk.Even.silence
  | next => exact agrees_move (Cursor.keeps_next fetches)
  | nextBack => exact agrees_move (Cursor.keeps_nextBack fetches)
  | nth n => exact agrees_move (Cursor.keeps_nth fetches n)
  | nthBack n => exact agrees_move (Cursor.keeps_nthBack fetches n)
  | get k => exact agrees_ask fun _ => .bind (fetches k) agrees_shown
  | len => exact agrees_ask fun _ => .pure _
  | sizeHint => exact agrees_ask fun _ => .pure _
  | count => exact agrees_ask fun _ => .pure _
  | last => exact agrees_ask fun c => .bind (Cursor.keeps_last fetches c) agrees_shown
  | toList => exact agrees_ask fun c => .bind (Cursor.keeps_toList fetches look c) fun _ => .pure _
  | toListRev => exact agrees_ask fun c => .bind (Cursor.keeps_toListRev fetches look c) fun _ => .pure _
  | toListSkipping gap => exact agrees_ask fun c => .bind (Cursor.keeps_toListSkipping fetches look gap c) fun _ => .pure _
  | push x =>
    obtain ⟨e', x⟩ := x
    unfold step
    by_cases same : e' = e
    · subst same
      simp only [dite_true]
      refine tells_bind (tells_mono (Direct.owes_push e' v.handle x) fun _ t owes => tells_pure ?_)
      rw [Talk.append_silence]
      exact owes
    · simp only [same, dite_false]
      exact tells_pure Talk.Even.silence
  | pop =>
    refine tells_bind (tells_mono (Direct.owes_pop e v.handle) fun x t owes => tells_pure ?_)
    rw [Talk.append_silence]
    exact owes

theorem owes_run (steps : List CursorStep) : ∀ cs : Cursors,
    Tells (run v cs steps) fun answers t => t.Owes (CursorStep.asidesAlong steps answers) := by
  induction steps with
  | nil => intro cs; exact tells_pure Talk.Even.silence
  | cons s steps ih =>
    intro cs
    refine tells_bind (tells_mono (owes_step v cs s) fun r t owes => ?_)
    refine tells_bind (tells_mono (ih r.2) fun answers t' owes' => tells_pure ?_)
    rw [Talk.append_silence]
    exact owes.append owes'

theorem owes_start (steps : List CursorStep) :
    Tells (start v steps) fun answers t => t.Owes (CursorStep.asidesAlong steps answers) := by
  refine tells_bind (tells_mono (VectorOwner.agrees_cursor v) fun c t even => ?_)
  exact tells_mono (owes_run v steps _) fun answers t' owes => .before even owes

end Walk

/-! ## Sessions -/

/-- Nothing is told of a look at the state, if what comes next is blind to settings and log. -/
theorem tells_get {S E α : Type} [Stage S] {k : S → StateT S (Except E) α} {Q : α → Talk → Prop}
    (blind : ∀ s settings log, k (under s settings log) = k s) (next : ∀ s, Tells (k s) Q) : Tells (get >>= k) Q := by
  intro s
  have run (settings : Settings) (log : Array LogRecord) :
      (get >>= k).run (under s settings log) = (k s).run (under s settings log) := by
    show (k (under s settings log)).run (under s settings log) = _
    rw [blind]
  simp only [run]
  exact next s s

namespace Session

/-- What a call tells, the session tells that makes it. -/
theorem tells_call {α : Type} {c : Call α} {Q : α → Talk → Prop} (tells : Tells c Q) : Tells (call c) Q := by
  intro s
  rcases tells s.store with ⟨fault, run⟩ | ⟨a, st, t, run, told, post⟩
  · refine .inl ⟨.fault fault, fun settings log => ?_⟩
    simp only [call, StateT.run]
    rw [show c (under s settings log).store = _ from run settings log]
  · refine .inr ⟨a, { s with store := st }, t, fun settings log => ?_, told, post⟩
    simp only [call, StateT.run]
    rw [show c (under s settings log).store = _ from run settings log]
    rfl

theorem agrees_call {α : Type} {c : Call α} (agrees : Agrees c) : Agrees (call c) := tells_call agrees

namespace Table

/-- A table that is neither settings nor log nor ledger. -/
class Blind {α : Type} (t : Table α) : Prop where
  of_under : ∀ s settings log, t.of (under s settings log) = t.of s
  set_under : ∀ s settings log x, t.set (under s settings log) x = under (t.set s x) settings log
  ledger_set : ∀ s x, ledger (t.set s x) = ledger s

instance : texts.Blind := ⟨fun _ _ _ => rfl, fun _ _ _ _ => rfl, fun _ _ => rfl⟩
instance : owned.Blind := ⟨fun _ _ _ => rfl, fun _ _ _ _ => rfl, fun _ _ => rfl⟩
instance : vectors.Blind := ⟨fun _ _ _ => rfl, fun _ _ _ _ => rfl, fun _ _ => rfl⟩
instance : released.Blind := ⟨fun _ _ _ => rfl, fun _ _ _ _ => rfl, fun _ _ => rfl⟩
instance : releasedVectors.Blind := ⟨fun _ _ _ => rfl, fun _ _ _ _ => rfl, fun _ _ => rfl⟩

variable {α : Type} (t : Table α) [t.Blind]

theorem silent_peek (i : Nat) : Silent (t.peek i) := by
  refine tells_look (f := fun s => ((t.of s).get? i).elim (.error (.refused .emptySlot)) Except.ok) (fun s => ?_)
    fun s settings log => by rw [Blind.of_under]
  cases found : (t.of s).get? i <;> simp [peek, found] <;> rfl

theorem silent_modify (f : Slots α → Slots α) : Silent (modify fun s => t.set s (f (t.of s)) : Act Unit) :=
  tells_modify (fun s settings log => by rw [Blind.of_under, Blind.set_under]) fun s => Blind.ledger_set s _

theorem silent_take (i : Nat) : Silent (t.take i) :=
  .bind (silent_peek t i) fun a => .bind (silent_modify t (·.clear i)) fun _ => .pure a

theorem silent_bind (a : α) : Silent (t.bind a) :=
  tells_get (fun s settings log => by rw [Blind.of_under]) fun s =>
    Keeps.bind (P := (· = .silence)) (silent_modify t (·.add a)) fun _ => .pure _

end Table

theorem silent_vectorOf (e : Element) (v : Nat) : Silent (vectorOf e v) := by
  refine .bind (Table.silent_peek .vectors v) fun x => ?_
  obtain ⟨e', owner⟩ := x
  by_cases same : e' = e
  · simp only [same, dite_true]
    exact .pure _
  · simp only [same, dite_false]
    exact .throw _

theorem silent_textVector (v : Nat) : Silent (textVector v) := by
  refine .bind (Table.silent_peek .vectors v) fun x => ?_
  obtain ⟨e, owner⟩ := x
  cases e with
  | text => exact .pure owner
  | scalar p => exact .throw _

theorem agrees_gatherSet (slots : List Nat) : ∀ set : TextSet, Agrees (gatherSet set slots) := by
  induction slots with
  | nil => intro set; exact .pure _
  | cons i slots ih =>
    intro set
    refine tells_get (fun _ _ _ => rfl) fun s => ?_
    cases s.texts.get? i with
    | none => exact Keeps.pure _
    | some o =>
      refine Keeps.bind (P := Talk.Even) (.of_silent (Table.silent_take .texts i)) fun o => ?_
      exact .bind (agrees_call (TextSet.agrees_insert set o)) ih

theorem agrees_showItem (e : Element) (x : Option e.Lent) : Agrees (showItem e x) := by
  cases x with
  | none => exact .pure _
  | some x => exact .bind (agrees_call (Element.agrees_look e x)) fun _ => .pure _

theorem agrees_sliceItems (e : Element) (v : VectorOwner e) : Agrees (sliceItems e v) := by
  cases e with
  | text =>
    refine .bind (agrees_call (VectorOwner.agrees_get v 0)) fun first => ?_
    cases first with
    | none => exact .pure _
    | some first => exact .bind (agrees_call (VectorOwner.agrees_start v)) fun _ => .pure _
  | scalar p =>
    refine .bind (agrees_call (VectorOwner.agrees_storage v)) fun _ => ?_
    refine .bind (agrees_call (VectorOwner.agrees_storageView v)) fun _ => ?_
    exact .bind (agrees_call (VectorOwner.agrees_start v)) fun _ => .pure _

theorem agrees_onLoan {α : Type} (p : Option Place) {f : Place → Call α} (agrees : ∀ p, Agrees (f p)) :
    Agrees (onLoan p f) := by
  cases p with
  | none => exact .pure _
  | some p => exact .map _ (agrees_call (agrees p))

theorem agrees_mapM {α β : Type} {f : α → Act β} (agrees : ∀ x, Agrees (f x)) (xs : List α) : Agrees (xs.mapM f) := by
  induction xs with
  | nil => exact .pure _
  | cons x xs ih =>
    rw [List.mapM_cons]
    exact .bind (agrees x) fun _ => .bind ih fun _ => .pure _

end Session

/-- What is aside of an operation, by its answer. -/
def Op.asides : Op → Answer → Asides
  | .releaseText _, .slot _ | .releaseOwned _, .slot _ => ⟨0, 0, 1, 0, 0⟩
  | .freeReleased _, .done => ⟨1, 0, 0, 0, 0⟩
  | .pop _, .poppedText x => ⟨0, 0, 0, 1, if x.isSome then 1 else 0⟩
  | .directPush _ ⟨e, _⟩, .done => e.pushAsides
  | .directPop _, .found e x => e.popAsides x
  | .walk _ steps, .walk answers => CursorStep.asidesAlong steps answers
  | _, _ => .none

namespace Session

section
variable {α : Type} {op : Op} {c : Act α} {k : α → Act Answer}

/-- An operation that begins with what ledger and log agree on. -/
theorem owes_after (agrees : Agrees c) (next : ∀ a, Tells (k a) fun y t => t.Owes (op.asides y)) :
    Tells (c >>= k) fun y t => t.Owes (op.asides y) :=
  tells_bind (tells_mono agrees fun a _ even => tells_mono (next a) fun _ _ owes => .before even owes)

/-- … and one that goes on in silence after what is aside of it. -/
theorem owes_then {x : α → Asides} (owes : Tells c fun a t => t.Owes (x a))
    (next : ∀ a, Tells (k a) fun y t => t = .silence ∧ op.asides y = x a) :
    Tells (c >>= k) fun y t => t.Owes (op.asides y) := by
  refine tells_bind (tells_mono owes fun a t owes => tells_mono (next a) ?_)
  rintro y _ ⟨rfl, same⟩
  rw [Talk.append_silence, same]
  exact owes

/-- The answer to an operation with nothing aside. -/
theorem owes_nothing {y : Answer} (nothing : op.asides y = .none) :
    Tells (pure y : Act Answer) fun y t => t.Owes (op.asides y) := by
  refine tells_pure ?_
  rw [nothing]
  exact Talk.Even.silence

/-- An operation with nothing aside whatever its answer. -/
theorem owes_of_agrees {c : Act Answer} (agrees : Agrees c) (nothing : ∀ y, op.asides y = .none) :
    Tells c fun y t => t.Owes (op.asides y) := by
  refine tells_mono agrees fun y t even => ?_
  rw [nothing]
  exact even

end

theorem agrees_bindSlot {α : Type} (t : Table α) [t.Blind] (a : α) : Agrees (do return Answer.slot (← t.bind a)) :=
  .bind (.of_silent (Table.silent_bind t a)) fun _ => .pure _

/-- What an operation tells owes what is aside of it. -/
theorem perform_owes (op : Op) (notSet : ∀ settings, op ≠ .configure settings) (notReset : op ≠ .resetLedger) :
    Tells (perform op) fun y t => t.Owes (op.asides y) := by
  cases op with
  | configure settings => exact absurd rfl (notSet settings)
  | resetLedger => exact absurd rfl notReset
  | markLedger =>
    refine owes_of_agrees (.bind (.of_silent ?_) fun _ => .pure _) fun _ => rfl
    exact tells_modify (f := fun s : Session => { s with mark := s.store.ledger }) (fun _ _ _ => rfl) fun _ => rfl
  | ledgerSinceMark =>
    refine tells_get (fun _ _ _ => rfl) fun s => ?_
    exact owes_nothing rfl
  | newText =>
    exact owes_of_agrees (.bind (agrees_call TextOwner.agrees_new) fun o => agrees_bindSlot .texts o) fun _ => rfl
  | textFrom t =>
    exact owes_of_agrees (.bind (agrees_call (TextOwner.agrees_ofText t)) fun o => agrees_bindSlot .texts o)
      fun _ => rfl
  | readText i via =>
    refine owes_of_agrees (.bind (.of_silent (Table.silent_peek .texts i)) fun o => ?_) fun _ => rfl
    exact .bind (agrees_call (Place.agrees_read _)) fun _ => .pure _
  | editText i via edits =>
    refine owes_of_agrees (.bind (.of_silent (Table.silent_peek .texts i)) fun o => ?_) fun _ => rfl
    refine .bind (agrees_call (Place.agrees_editAll _ edits)) fun _ => ?_
    exact .bind (agrees_call (Place.agrees_text _)) fun _ => .pure _
  | compareTexts i j =>
    refine owes_of_agrees (.bind (.of_silent (Table.silent_peek .texts i)) fun a => ?_) fun _ => rfl
    refine .bind (.of_silent (Table.silent_peek .texts j)) fun b => ?_
    refine .bind (agrees_call (TextCalls.agrees_equals _ _)) fun _ => ?_
    exact .bind (agrees_call (TextCalls.agrees_equals _ _)) fun _ => .pure _
  | compareWithText i t =>
    refine owes_of_agrees (.bind (.of_silent (Table.silent_peek .texts i)) fun o => ?_) fun _ => rfl
    exact .bind (agrees_mapM (fun via => agrees_call (Place.agrees_equalsText _ t)) _) fun _ => .pure _
  | hashText i =>
    refine owes_of_agrees (.bind (.of_silent (Table.silent_peek .texts i)) fun o => ?_) fun _ => rfl
    exact .bind (agrees_call (TextCalls.agrees_hash _)) fun _ => .pure _
  | dropText i =>
    refine owes_of_agrees (.bind (.of_silent (Table.silent_take .texts i)) fun o => ?_) fun _ => rfl
    exact .bind (agrees_call (TextOwner.agrees_drop o)) fun _ => .pure _
  | releaseText i =>
    refine owes_after (.of_silent (Table.silent_take .texts i)) fun o => ?_
    refine owes_then (tells_call (TextOwner.owes_release o)) fun h => ?_
    exact (Table.silent_bind .released h).before fun _ => tells_pure ⟨rfl, rfl⟩
  | adoptText i =>
    refine owes_of_agrees (.bind (.of_silent (Table.silent_take .released i)) fun h => ?_) fun _ => rfl
    exact agrees_bindSlot .texts _
  | freeReleased i =>
    refine owes_after (.of_silent (Table.silent_take .released i)) fun h => ?_
    exact owes_then (tells_call (TextCalls.owes_free h)) fun _ => tells_pure ⟨rfl, rfl⟩
  | countDistinct slots =>
    refine owes_of_agrees (.bind (agrees_gatherSet slots []) fun r => ?_) fun _ => rfl
    exact .bind (agrees_call (TextSet.agrees_drop r.1)) fun _ => .pure _
  | adoptOwned i =>
    refine owes_of_agrees (.bind (.of_silent (Table.silent_take .released i)) fun h => ?_) fun _ => rfl
    exact agrees_bindSlot .owned _
  | readOwned i =>
    refine owes_of_agrees (.bind (.of_silent (Table.silent_peek .owned i)) fun o => ?_) fun _ => rfl
    refine .bind (agrees_call (Place.agrees_text _)) fun _ => ?_
    exact .bind (agrees_call (Place.agrees_text _)) fun _ => .pure _
  | editOwned i edits =>
    refine owes_of_agrees (.bind (.of_silent (Table.silent_peek .owned i)) fun o => ?_) fun _ => rfl
    refine .bind (agrees_call (Place.agrees_editAll _ edits)) fun _ => ?_
    exact .bind (agrees_call (Place.agrees_text _)) fun _ => .pure _
  | dropOwned i =>
    refine owes_of_agrees (.bind (.of_silent (Table.silent_take .owned i)) fun o => ?_) fun _ => rfl
    exact .bind (agrees_call (TextOwner.agrees_drop o)) fun _ => .pure _
  | releaseOwned i =>
    refine owes_after (.of_silent (Table.silent_take .owned i)) fun o => ?_
    refine owes_then (tells_call (TextOwner.owes_release o)) fun h => ?_
    exact (Table.silent_bind .released h).before fun _ => tells_pure ⟨rfl, rfl⟩
  | newVector e =>
    exact owes_of_agrees (.bind (agrees_call (VectorOwner.agrees_new e)) fun v => agrees_bindSlot .vectors _)
      fun _ => rfl
  | collectVector e xs =>
    exact owes_of_agrees (.bind (agrees_call (VectorOwner.agrees_collect e xs)) fun v => agrees_bindSlot .vectors _)
      fun _ => rfl
  | push v x =>
    obtain ⟨e, x⟩ := x
    refine owes_of_agrees (.bind (.of_silent (silent_vectorOf e v)) fun owner => ?_) fun _ => rfl
    refine .bind (agrees_call (Element.agrees_make e x)) fun item => ?_
    exact .bind (agrees_call (VectorOwner.agrees_push owner item)) fun _ => .pure _
  | pushText v i =>
    refine owes_of_agrees (.bind (.of_silent (silent_textVector v)) fun owner => ?_) fun _ => rfl
    refine .bind (.of_silent (Table.silent_take .texts i)) fun o => ?_
    exact .bind (agrees_call (VectorOwner.agrees_push owner o)) fun _ => .pure _
  | extend v e xs =>
    refine owes_of_agrees (.bind (.of_silent (silent_vectorOf e v)) fun owner => ?_) fun _ => rfl
    exact .bind (agrees_call (VectorOwner.agrees_extend owner _ (VectorOwner.agrees_makeAll e xs))) fun _ => .pure _
  | pop v =>
    refine owes_after (.of_silent (Table.silent_peek .vectors v)) fun x => ?_
    obtain ⟨e, owner⟩ := x
    cases e with
    | text =>
      refine tells_bind (tells_mono (tells_call (VectorOwner.owes_pop owner)) fun found t owes => ?_)
      cases found with
      | none =>
        refine tells_pure ?_
        rw [Talk.append_silence]
        exact owes
      | some o =>
        refine (Table.silent_bind .texts o).before fun i => ?_
        refine tells_bind (tells_mono (agrees_call (Place.agrees_text _)) fun u t' even => tells_pure ?_)
        rw [Talk.append_silence]
        exact owes.after even
    | scalar p => exact owes_after (agrees_call (VectorOwner.agrees_popScalar owner)) fun _ => owes_nothing rfl
  | get v i =>
    refine owes_of_agrees (.bind (.of_silent (Table.silent_peek .vectors v)) fun x => ?_) fun _ => rfl
    exact .bind (agrees_call (VectorOwner.agrees_get x.2 i)) (agrees_showItem x.1)
  | getMut v i =>
    refine owes_of_agrees (.bind (.of_silent (Table.silent_peek .vectors v)) fun x => ?_) fun _ => rfl
    exact .bind (agrees_call (VectorOwner.agrees_getMut x.2 i)) (agrees_showItem x.1)
  | itemAt v i =>
    refine owes_of_agrees (.bind (.of_silent (Table.silent_peek .vectors v)) fun x => ?_) fun _ => rfl
    refine .bind (agrees_call (VectorOwner.agrees_itemAt x.2 i)) fun found => ?_
    cases found with
    | error r => exact .pure _
    | ok item => exact .bind (agrees_call (Element.agrees_look x.1 item)) fun _ => .pure _
  | vectorLen v =>
    refine owes_of_agrees (.bind (.of_silent (Table.silent_peek .vectors v)) fun x => ?_) fun _ => rfl
    refine .bind (agrees_call (VectorOwner.agrees_len x.2)) fun _ => ?_
    exact .bind (agrees_call (VectorOwner.agrees_isEmpty x.2)) fun _ => .pure _
  | debugVector v =>
    refine owes_of_agrees (.bind (.of_silent (Table.silent_peek .vectors v)) fun x => ?_) fun _ => rfl
    exact .bind (agrees_call (VectorOwner.agrees_debug x.2)) fun _ => .pure _
  | listVector v =>
    refine owes_of_agrees (.bind (.of_silent (Table.silent_peek .vectors v)) fun x => ?_) fun _ => rfl
    exact .bind (agrees_call (VectorOwner.agrees_toList x.2)) fun _ => .pure _
  | sliceVector v =>
    refine owes_of_agrees (.bind (.of_silent (Table.silent_peek .vectors v)) fun x => ?_) fun _ => rfl
    exact agrees_sliceItems x.1 x.2
  | dropVector v =>
    refine owes_of_agrees (.bind (.of_silent (Table.silent_take .vectors v)) fun x => ?_) fun _ => rfl
    exact .bind (agrees_call (VectorOwner.agrees_drop x.2)) fun _ => .pure _
  | releaseVector v =>
    refine owes_of_agrees (.bind (.of_silent (Table.silent_take .vectors v)) fun x => ?_) fun _ => rfl
    exact .bind (agrees_call (VectorOwner.agrees_release x.2)) fun h => agrees_bindSlot .releasedVectors _
  | adoptVector i =>
    refine owes_of_agrees (.bind (.of_silent (Table.silent_take .releasedVectors i)) fun x => ?_) fun _ => rfl
    exact agrees_bindSlot .vectors _
  | editItem v i edits =>
    refine owes_of_agrees (.bind (.of_silent (silent_textVector v)) fun owner => ?_) fun _ => rfl
    refine .bind (agrees_call (VectorOwner.agrees_getMut owner i)) fun p => ?_
    refine .bind (agrees_onLoan p fun p => ?_) fun _ => .pure _
    exact .bind (Place.agrees_editAll p edits) fun _ => Place.agrees_read p
  | readItem v i =>
    refine owes_of_agrees (.bind (.of_silent (silent_textVector v)) fun owner => ?_) fun _ => rfl
    refine .bind (agrees_call (VectorOwner.agrees_get owner i)) fun p => ?_
    refine .bind (agrees_onLoan p fun p => ?_) fun _ => .pure _
    exact .bind (Place.agrees_read p) fun _ => .bind (TextCalls.agrees_hash p) fun _ => .pure _
  | compareItems v i j =>
    refine owes_of_agrees (.bind (.of_silent (silent_textVector v)) fun owner => ?_) fun _ => rfl
    refine .bind (agrees_call (VectorOwner.agrees_get owner i)) fun a => ?_
    refine .bind (agrees_call (VectorOwner.agrees_get owner j)) fun b => ?_
    cases a with
    | none => cases b <;> exact .pure _
    | some a =>
      cases b with
      | none => exact .pure _
      | some b => exact .bind (agrees_call (TextCalls.agrees_equals _ _)) fun _ => .pure _
  | walk v steps =>
    refine owes_after (.of_silent (Table.silent_peek .vectors v)) fun x => ?_
    exact owes_then (tells_call (Walk.owes_start x.2 steps)) fun _ => tells_pure ⟨rfl, rfl⟩
  | directPush v x =>
    obtain ⟨e, x⟩ := x
    refine owes_after (.of_silent (silent_vectorOf e v)) fun owner => ?_
    exact owes_then (tells_call (Direct.owes_push e owner.handle x)) fun _ => tells_pure ⟨rfl, rfl⟩
  | directPop v =>
    refine owes_after (.of_silent (Table.silent_peek .vectors v)) fun x => ?_
    exact owes_then (tells_call (Direct.owes_pop x.1 x.2.handle)) fun _ => tells_pure ⟨rfl, rfl⟩
  | directGet v i =>
    refine owes_of_agrees (.bind (.of_silent (Table.silent_peek .vectors v)) fun x => ?_) fun _ => rfl
    exact .bind (agrees_call (Direct.agrees_get x.1 x.2.handle i)) fun _ => .pure _
  | directGetMut v i =>
    refine owes_of_agrees (.bind (.of_silent (Table.silent_peek .vectors v)) fun x => ?_) fun _ => rfl
    exact .bind (agrees_call (Direct.agrees_getMut x.1 x.2.handle i)) fun _ => .pure _
  | directLen v =>
    refine owes_of_agrees (.bind (.of_silent (Table.silent_peek .vectors v)) fun x => ?_) fun _ => rfl
    exact .bind (agrees_call (VectorCalls.agrees_len x.1 x.2.handle)) fun _ => .pure _

/-- A step under any settings: the same fault, or the same answer and state, after the same talk. -/
theorem step_owes (s : Session) (op : Op) (notSet : ∀ settings, op ≠ .configure settings)
    (notReset : op ≠ .resetLedger) :
    (∃ fault, ∀ settings log, (under s settings log).step op = .error fault) ∨
      ∃ y s' t, (∀ settings log, (under s settings log).step op =
          .ok (y, under s' settings (log ++ (t.heard settings).toArray))) ∧
        s'.store.ledger = t.events.foldl .record s.store.ledger ∧ Talk.Owes (op.asides y) t := by
  rcases perform_owes op notSet notReset s with ⟨stop, run⟩ | ⟨y, s', t, run, told, owes⟩
  · cases stop with
    | fault f => exact .inl ⟨f, fun settings log => by rw [step, run]⟩
    | refused why =>
      refine .inr ⟨.refused why, s, .silence, fun settings log => ?_, rfl, ?_⟩
      · rw [step, run, show log ++ (Talk.silence.heard settings).toArray = log from Array.append_empty]
      · have nothing : op.asides (.refused why) = .none := by cases op <;> rfl
        rw [nothing]
        exact Talk.Even.silence
  · exact .inr ⟨y, s', t, fun settings log => by rw [step, run], told, owes⟩

end Session

end Custody
