/-
  Custody.Proofs.Looking — looking at things changes nothing.

  `ReadsOnly w c` says that a call that begins in a store that looks like `w` is put together from what leaves
  the store alone: a boundary call is logged, an object is looked up, and what is there is written back.
  Such a call only adds to the log, whatever it finds (`ReadsOnly.quiet`). What there is to read of texts and
  vectors is put together so, and so is every walk, and the pop that finds a vector empty.
-/
import Custody.Proofs.World
import Custody.Session.Walk

namespace Custody

namespace World

variable (w : World)

/-- A result that the call can have in a store that looks like `w`. -/
def Gives {α : Type} (c : Call α) (x : α) : Prop := ∃ st st', st.world = w ∧ c.run st = .ok (x, st')

/-- A vector of that handle, if there is one, has no items. -/
def Vacant (v : Handle) : Prop := ∀ e xs, w.find v = some (.vector e xs) → xs.size = 0

end World

/-- The call, begun in `w`, only looks at what is there. -/
inductive ReadsOnly (w : World) : {α : Type} → Call α → Prop
  | pure {α : Type} (x : α) : ReadsOnly w (pure x)
  /-- It may fault. -/
  | stop {α : Type} (f : Fault) : ReadsOnly w (throw f : Call α)
  | enter (e : Entry) : ReadsOnly w (Store.enter e)
  | object (h : Handle) : ReadsOnly w (Store.object h)
  | again {h : Handle} {o : Object} (live : w.find h = some o) : ReadsOnly w (Store.replace h o)
  /-- What it looks at next may depend on what it found. -/
  | bind {α β : Type} {c : Call α} {k : α → Call β} (first : ReadsOnly w c)
      (next : ∀ x, w.Gives c x → ReadsOnly w (k x)) : ReadsOnly w (c >>= k)

variable {w : World}

namespace Store

theorem run_object (st : Store) (h : Handle) :
    (object h).run st = ((st.heap.find? h).map fun o => Except.ok (o, st)).getD (.error (.dead h)) := by
  cases found : st.heap.find? h <;> simp [object, found] <;> rfl

theorem run_enter_eq (st : Store) (e : Entry) : ∃ log, (enter e).run st = .ok ((), { st with log }) := by
  by_cases traced : st.settings.traceCalls
  · exact ⟨st.log.push (.call e), by simp [enter, say, traced]; rfl⟩
  · exact ⟨st.log, by simp [enter, traced]; rfl⟩

end Store

namespace ReadsOnly

/-- Looking leaves everything but the log as it was. -/
theorem quiet {α : Type} {c : Call α} (only : ReadsOnly w c) : ∀ {st st' : Store} {x : α}, st.world = w →
    c.run st = .ok (x, st') → st' = { st with log := st'.log } := by
  induction only with
  | pure x =>
    intro st st' _ _ run
    cases run
    rfl
  | stop f =>
    intro st st' _ _ run
    cases run
  | enter e =>
    intro st st' _ _ run
    obtain ⟨log, logged⟩ := st.run_enter_eq e
    rw [logged] at run
    cases run
    rfl
  | object h =>
    intro st st' _ _ run
    rw [Store.run_object] at run
    cases found : st.heap.find? h with
    | none => rw [found] at run; cases run
    | some o => rw [found] at run; cases run; rfl
  | @again h o live =>
    intro st st' _ here run
    subst here
    have same : st.heap.replace h o = st.heap := by
      unfold Heap.replace
      rw [Slots.put_self (show st.heap.slots.get? (h.address - 1) = some o from live)]
    cases run
    simp only [same]
  | @bind _ _ c k first next ih ih' =>
    intro st st' _ here run
    rw [StateT.run_bind] at run
    cases run' : c.run st with
    | error f => rw [run'] at run; cases run
    | ok r =>
      obtain ⟨x, st₁⟩ := r
      rw [run'] at run
      have quiet₁ : st₁ = { st with log := st₁.log } := ih here run'
      have here₁ : st₁.world = w := by
        rw [quiet₁]
        exact here
      have quiet₂ := ih' x ⟨st, st₁, here, run'⟩ here₁ run
      rw [quiet₂, quiet₁]

variable {α β : Type} {c : Call α}

theorem map (f : α → β) (only : ReadsOnly w c) : ReadsOnly w (f <$> c) := by
  rw [map_eq_pure_bind]
  exact .bind only fun x _ => .pure (f x)

theorem after {d : Call β} (first : ReadsOnly w c) (next : ReadsOnly w d) : ReadsOnly w (c >>= fun _ => d) :=
  .bind first fun _ _ => next

end ReadsOnly

/-! ## What is found -/

namespace World

variable {α β : Type}

theorem gives_bind {c : Call α} {k : α → Call β} {y : β} (only : ReadsOnly w c) (gives : w.Gives (c >>= k) y) :
    ∃ x, w.Gives c x ∧ w.Gives (k x) y := by
  obtain ⟨st, st', here, run⟩ := gives
  rw [StateT.run_bind] at run
  cases run' : c.run st with
  | error f => rw [run'] at run; cases run
  | ok r =>
    obtain ⟨x, st₁⟩ := r
    rw [run'] at run
    have here₁ : st₁.world = w := by
      rw [only.quiet here run']
      exact here
    exact ⟨x, ⟨st, st₁, here, run'⟩, st₁, st', here₁, run⟩

theorem gives_pure {x y : α} (gives : w.Gives (pure x) y) : y = x := by
  obtain ⟨st, st', -, run⟩ := gives
  cases run
  rfl

theorem gives_object {h : Handle} {o : Object} (gives : w.Gives (Store.object h) o) : w.find h = some o := by
  obtain ⟨st, st', rfl, run⟩ := gives
  rw [Store.run_object] at run
  show st.heap.find? h = some o
  cases found : st.heap.find? h with
  | none => rw [found] at run; cases run
  | some o => rw [found] at run; cases run; rfl

/-- Items are found in a vector of their type. -/
theorem gives_items {e : Element} {v : Handle} {xs : Array e.Item} (gives : w.Gives (Store.items e v) xs) :
    w.find v = some (.vector e xs) := by
  obtain ⟨o, found, gives⟩ := gives_bind (.object v) gives
  rw [gives_object found]
  cases o with
  | text t =>
    obtain ⟨st, st', -, run⟩ := gives
    cases run
  | vector e' xs' =>
    by_cases same : e' = e
    · subst same
      simp only [dite_true] at gives
      rw [gives_pure gives]
    · simp only [same, dite_false] at gives
      obtain ⟨st, st', -, run⟩ := gives
      cases run

end World

/-! ## The store's functions -/

namespace Store

theorem reads_boxedText (h : Handle) : ReadsOnly w (boxedText h) := by
  refine .bind (.object h) fun o _ => ?_
  cases o with
  | text t => exact .pure t
  | vector e xs => exact .stop _

theorem reads_items (e : Element) (v : Handle) : ReadsOnly w (items e v) := by
  refine .bind (.object v) fun o _ => ?_
  cases o with
  | text t => exact .stop _
  | vector e' xs =>
    by_cases same : e' = e
    · simp only [same, dite_true]
      exact .pure _
    · simp only [same, dite_false]
      exact .stop _

theorem reads_textAt (p : Place) : ReadsOnly w (textAt p) := by
  cases p with
  | whole h => exact reads_boxedText h
  | item v i =>
    refine .bind (reads_items .text v) fun ts _ => ?_
    cases ts[i.toNat]? with
    | none => exact .stop _
    | some t => exact .pure t

theorem reads_storageFrom (p : Primitive) (place : Place) : ReadsOnly w (storageFrom p place) := by
  cases place with
  | whole h => exact .stop _
  | item v i => exact .bind (reads_items (.scalar p) v) fun _ _ => .pure _

end Store

namespace TextCalls

theorem reads_len (p : Place) : ReadsOnly w (len p) :=
  .after (.enter _) (.bind (Store.reads_textAt p) fun _ _ => .pure _)

theorem reads_view (p : Place) : ReadsOnly w (view p) :=
  .after (.enter _) (.bind (Store.reads_textAt p) fun _ _ => .pure _)

theorem reads_trim (p : Place) : ReadsOnly w (trim p) :=
  .after (.enter _) (.bind (Store.reads_textAt p) fun _ _ => .pure _)

theorem reads_equals (p q : Place) : ReadsOnly w (equals p q) :=
  .after (.enter _) (.bind (Store.reads_textAt p) fun _ _ => .bind (Store.reads_textAt q) fun _ _ => .pure _)

theorem reads_hash (p : Place) : ReadsOnly w (hash p) :=
  .after (.enter _) (.bind (Store.reads_textAt p) fun _ _ => .pure _)

end TextCalls

namespace VectorCalls

theorem reads_len (e : Element) (v : Handle) : ReadsOnly w (len e v) :=
  .after (.enter _) (.bind (Store.reads_items e v) fun _ _ => .pure _)

theorem reads_start (e : Element) (v : Handle) : ReadsOnly w (start e v) :=
  .after (.enter _) (.after (.map _ (Store.reads_items e v)) (.pure _))

theorem reads_lend (v : Handle) (i : UInt64) : ReadsOnly w (lend v i) :=
  .bind (Store.reads_items .text v) fun _ _ => .pure _

theorem reads_getText (v : Handle) (i : UInt64) : ReadsOnly w (getText v i) := .after (.enter _) (reads_lend v i)

theorem reads_getMutText (v : Handle) (i : UInt64) : ReadsOnly w (getMutText v i) :=
  .after (.enter _) (reads_lend v i)

theorem reads_copy (p : Primitive) (v : Handle) (i : UInt64) : ReadsOnly w (copy p v i) :=
  .bind (Store.reads_items (.scalar p) v) fun _ _ => .pure _

theorem reads_getScalar (p : Primitive) (v : Handle) (i : UInt64) : ReadsOnly w (getScalar p v i) :=
  .after (.enter _) (reads_copy p v i)

theorem reads_getMutScalar (p : Primitive) (v : Handle) (i : UInt64) : ReadsOnly w (getMutScalar p v i) :=
  .after (.enter _) (reads_copy p v i)

/-- The pop that finds no item makes no allocation … -/
theorem reads_popText {v : Handle} (vacant : w.Vacant v) : ReadsOnly w (popText v) := by
  refine .after (.enter _) (.bind (Store.reads_items .text v) fun ts found => ?_)
  rw [Array.eq_empty_of_size_eq_zero (vacant _ ts (World.gives_items found))]
  exact .pure none

/-- … and hands none out. -/
theorem gives_popText {v : Handle} (vacant : w.Vacant v) {x : Option Handle} (gives : w.Gives (popText v) x) :
    x = none := by
  obtain ⟨_, -, gives⟩ := World.gives_bind (.enter _) gives
  obtain ⟨ts, found, gives⟩ := World.gives_bind (Store.reads_items .text v) gives
  rw [Array.eq_empty_of_size_eq_zero (vacant _ ts (World.gives_items found))] at gives
  exact World.gives_pure gives

/-- The pop of a primitive vector puts an empty one in the place of an empty one. -/
theorem reads_popScalar {p : Primitive} {v : Handle} (vacant : w.Vacant v) : ReadsOnly w (popScalar p v) := by
  refine .after (.enter _) (.bind (Store.reads_items (.scalar p) v) fun xs found => ?_)
  have live := World.gives_items found
  have none_left : xs = #[] := Array.eq_empty_of_size_eq_zero (vacant _ xs live)
  subst none_left
  exact .after (.again live) (.pure _)

/-- Past the end there is nothing to lend. -/
theorem gives_getMutText {v : Handle} {i : UInt64} {x : Option Place} (gives : w.Gives (getMutText v i) x)
    (past : ∀ ts, w.find v = some (.vector .text ts) → ts.size ≤ i.toNat) : x = none := by
  obtain ⟨_, -, gives⟩ := World.gives_bind (.enter _) gives
  obtain ⟨ts, found, gives⟩ := World.gives_bind (Store.reads_items .text v) gives
  have := past ts (World.gives_items found)
  rw [World.gives_pure gives, if_neg (by omega)]

end VectorCalls

/-! ## Texts -/

namespace Place

variable (p : Place)

theorem reads_len : ReadsOnly w p.len := TextCalls.reads_len p

theorem reads_isEmpty : ReadsOnly w p.isEmpty := .bind p.reads_len fun _ _ => .pure _

theorem reads_view : ReadsOnly w p.view := TextCalls.reads_view p

theorem reads_text : ReadsOnly w p.text := .bind p.reads_view fun _ _ => .pure _

theorem reads_trimmed : ReadsOnly w p.trimmed := .bind (TextCalls.reads_trim p) fun _ _ => .pure _

theorem reads_display : ReadsOnly w p.display := p.reads_text

theorem reads_debug : ReadsOnly w p.debug := .bind p.reads_text fun _ _ => .pure _

theorem reads_storeHash : ReadsOnly w p.storeHash := TextCalls.reads_hash p

theorem reads_hash : ReadsOnly w p.hash := .bind p.reads_storeHash fun _ _ => .pure _

theorem reads_equals (q : Place) : ReadsOnly w (p.equals q) := TextCalls.reads_equals p q

theorem reads_equalsText (t : String) : ReadsOnly w (p.equalsText t) := .bind p.reads_text fun _ _ => .pure _

theorem reads_read : ReadsOnly w p.read :=
  .bind p.reads_len fun _ _ => .bind p.reads_isEmpty fun _ _ => .bind p.reads_text fun _ _ =>
    .bind p.reads_trimmed fun _ _ => .bind p.reads_view fun _ _ => .bind p.reads_display fun _ _ =>
      .bind p.reads_debug fun _ _ => .bind p.reads_hash fun _ _ => .pure _

end Place

/-! ## Vectors -/

variable {e : Element}

theorem Element.reads_look (e : Element) (x : e.Lent) : ReadsOnly w (e.look x) := by
  cases e with
  | text => exact Place.reads_text x
  | scalar p => exact .pure x

namespace VectorOwner

variable (v : VectorOwner e)

theorem reads_len : ReadsOnly w v.len := VectorCalls.reads_len e v.handle

theorem reads_isEmpty : ReadsOnly w v.isEmpty := .bind v.reads_len fun _ _ => .pure _

theorem reads_start : ReadsOnly w v.start := VectorCalls.reads_start e v.handle

theorem reads_get (i : UInt64) : ReadsOnly w (v.get i) := by
  cases e with
  | text => exact VectorCalls.reads_getText v.handle i
  | scalar p => exact .bind (VectorCalls.reads_getScalar p v.handle i) fun _ _ => .pure _

theorem reads_getMut (i : UInt64) : ReadsOnly w (v.getMut i) := by
  cases e with
  | text => exact VectorCalls.reads_getMutText v.handle i
  | scalar p => exact .bind (VectorCalls.reads_getMutScalar p v.handle i) fun _ _ => .pure _

theorem reads_itemAt (i : UInt64) : ReadsOnly w (v.itemAt i) := by
  refine .bind (v.reads_get i) fun x _ => ?_
  cases x with
  | some x => exact .pure _
  | none => exact .bind v.reads_len fun _ _ => .pure _

theorem reads_pop (vacant : w.Vacant v.handle) : ReadsOnly w v.pop := by
  cases e with
  | text => exact .bind (VectorCalls.reads_popText vacant) fun _ _ => .pure _
  | scalar p => exact .bind (VectorCalls.reads_popScalar vacant) fun _ _ => .pure _

theorem reads_storageView {p : Primitive} (v : VectorOwner (.scalar p)) : ReadsOnly w v.storageView :=
  .bind v.reads_start fun _ _ => .bind v.reads_len fun _ _ => .pure _

theorem reads_readView (p : Primitive) (view : View Place) : ReadsOnly w (readView p view) := by
  unfold readView
  split
  · exact .pure _
  · cases view.start with
    | none => exact .pure _
    | some place => exact .bind (Store.reads_storageFrom p place) fun _ _ => .pure _

theorem reads_storage {p : Primitive} (v : VectorOwner (.scalar p)) : ReadsOnly w v.storage :=
  .bind v.reads_storageView fun view _ => reads_readView p view

theorem reads_cursor : ReadsOnly w v.cursor := .bind v.reads_len fun _ _ => .pure _

end VectorOwner

/-! ## Walks -/

namespace Cursor

variable {α β : Type} {fetch : UInt64 → Call (Option α)} {look : α → Call β}
  {step : Cursor → Call (Option α × Cursor)}

theorem reads_next (fetches : ∀ i, ReadsOnly w (fetch i)) (c : Cursor) : ReadsOnly w (c.next fetch) := by
  unfold next
  split
  · exact .pure _
  · refine .bind (fetches _) fun x _ => ?_
    cases x with
    | none => exact .pure _
    | some x => exact .pure _

theorem reads_nth (fetches : ∀ i, ReadsOnly w (fetch i)) (n : UInt64) (c : Cursor) : ReadsOnly w (c.nth fetch n) :=
  reads_next fetches (c.skip n)

theorem reads_nextBack (fetches : ∀ i, ReadsOnly w (fetch i)) (c : Cursor) : ReadsOnly w (c.nextBack fetch) := by
  unfold nextBack
  split
  · exact .pure _
  · refine .bind (fetches _) fun x _ => ?_
    cases x with
    | none => exact .pure _
    | some x => exact .pure _

theorem reads_skipBack (fetches : ∀ i, ReadsOnly w (fetch i)) : ∀ (n : Nat) (c : Cursor),
    ReadsOnly w (skipBack fetch n c) := by
  intro n
  induction n with
  | zero => intro c; exact .pure _
  | succ n ih =>
    intro c
    refine .bind (reads_nextBack fetches c) fun r _ => ?_
    obtain ⟨x, c⟩ := r
    cases x with
    | none => exact .pure _
    | some x => exact ih c

theorem reads_nthBack (fetches : ∀ i, ReadsOnly w (fetch i)) (n : UInt64) (c : Cursor) :
    ReadsOnly w (c.nthBack fetch n) := by
  refine .bind (reads_skipBack fetches _ c) fun r _ => ?_
  obtain ⟨all, c⟩ := r
  cases all with
  | true => exact reads_nextBack fetches c
  | false => exact .pure _

theorem reads_gather (steps : ∀ c, ReadsOnly w (step c)) (looks : ∀ x, ReadsOnly w (look x)) :
    ∀ (n : Nat) (c : Cursor), ReadsOnly w (gather step look n c) := by
  intro n
  induction n with
  | zero => intro c; exact .pure _
  | succ n ih =>
    intro c
    refine .bind (steps c) fun r _ => ?_
    obtain ⟨x, c⟩ := r
    cases x with
    | none => exact .pure _
    | some x => exact .bind (looks x) fun _ _ => .bind (ih c) fun _ _ => .pure _

theorem reads_lastOf (steps : ∀ c, ReadsOnly w (step c)) : ∀ (n : Nat) (last : Option α) (c : Cursor),
    ReadsOnly w (lastOf step n last c) := by
  intro n
  induction n with
  | zero => intro last c; exact .pure _
  | succ n ih =>
    intro last c
    refine .bind (steps c) fun r _ => ?_
    obtain ⟨x, c⟩ := r
    cases x with
    | none => exact .pure _
    | some x => exact ih (some x) c

theorem reads_toList (fetches : ∀ i, ReadsOnly w (fetch i)) (looks : ∀ x, ReadsOnly w (look x)) (c : Cursor) :
    ReadsOnly w (c.toList fetch look) := reads_gather (reads_next fetches) looks _ c

theorem reads_toListRev (fetches : ∀ i, ReadsOnly w (fetch i)) (looks : ∀ x, ReadsOnly w (look x)) (c : Cursor) :
    ReadsOnly w (c.toListRev fetch look) := reads_gather (reads_nextBack fetches) looks _ c

theorem reads_toListSkipping (fetches : ∀ i, ReadsOnly w (fetch i)) (looks : ∀ x, ReadsOnly w (look x))
    (gap : UInt64) (c : Cursor) : ReadsOnly w (c.toListSkipping fetch look gap) := by
  refine .bind (reads_nth fetches 0 c) fun r _ => ?_
  obtain ⟨x, c⟩ := r
  cases x with
  | none => exact .pure _
  | some x =>
    exact .bind (looks x) fun _ _ =>
      .bind (reads_gather (reads_nth fetches gap) looks _ c) fun _ _ => .pure _

theorem reads_last (fetches : ∀ i, ReadsOnly w (fetch i)) (c : Cursor) : ReadsOnly w (c.last fetch) :=
  reads_lastOf (reads_next fetches) _ none c

end Cursor

namespace VectorOwner

variable (v : VectorOwner e)

theorem reads_toList : ReadsOnly w v.toList :=
  .bind v.reads_cursor fun c _ => Cursor.reads_toList v.reads_get e.reads_look c

theorem reads_debug : ReadsOnly w v.debug := .bind v.reads_toList fun _ _ => .pure _

end VectorOwner

namespace Direct

theorem reads_lookAt (x : Option Place) : ReadsOnly w (lookAt x) := by
  cases x with
  | none => exact .pure none
  | some p => exact .map some p.reads_text

theorem reads_get (e : Element) (v : Handle) (i : UInt64) : ReadsOnly w (get e v i) := by
  cases e with
  | text => exact .bind (VectorCalls.reads_getText v i) fun x _ => reads_lookAt x
  | scalar p => exact VectorCalls.reads_getScalar p v i

theorem reads_getMut (e : Element) (v : Handle) (i : UInt64) : ReadsOnly w (getMut e v i) := by
  cases e with
  | text => exact .bind (VectorCalls.reads_getMutText v i) fun x _ => reads_lookAt x
  | scalar p => exact VectorCalls.reads_getMutScalar p v i

theorem reads_pop (e : Element) {v : Handle} (vacant : w.Vacant v) : ReadsOnly w (pop e v) := by
  cases e with
  | text =>
    refine .bind (VectorCalls.reads_popText vacant) fun x found => ?_
    rw [VectorCalls.gives_popText vacant found]
    exact .pure none
  | scalar p => exact VectorCalls.reads_popScalar vacant

end Direct

/-- Whether a step of a walk only looks: a pop does if it finds the vector empty. -/
def CursorAction.readsOnly (vacant : Bool) : CursorAction → Bool
  | .push _ => false
  | .pop => vacant
  | _ => true

namespace Walk

theorem reads_shown (x : Option e.Lent) : ReadsOnly w (shown x) := by
  cases x with
  | none => exact .pure _
  | some x => exact .bind (e.reads_look x) fun _ _ => .pure _

theorem reads_move {cs : Cursors} {i : Nat} {step : Cursor → Call (Option e.Lent × Cursor)}
    (steps : ∀ c, ReadsOnly w (step c)) : ReadsOnly w (move cs i step) := by
  unfold move
  cases cs.get? i with
  | none => exact .pure _
  | some c => exact .bind (steps c) fun _ _ => .bind (reads_shown _) fun _ _ => .pure _

theorem reads_peek {cs : Cursors} {i : Nat} {f : Cursor → Call CursorAnswer} (asks : ∀ c, ReadsOnly w (f c)) :
    ReadsOnly w (peek cs i f) := by
  unfold peek
  cases cs.get? i with
  | none => exact .pure _
  | some c => exact .bind (asks c) fun _ _ => .pure _

theorem reads_consume {cs : Cursors} {i : Nat} {f : Cursor → Call CursorAnswer} (asks : ∀ c, ReadsOnly w (f c)) :
    ReadsOnly w (consume cs i f) := by
  unfold consume
  cases cs.get? i with
  | none => exact .pure _
  | some c => exact .bind (asks c) fun _ _ => .pure _

variable (v : VectorOwner e)

theorem reads_step {vacant : Bool} (empty : vacant → w.Vacant v.handle) (cs : Cursors) {s : CursorStep}
    (only : s.action.readsOnly vacant) : ReadsOnly w (step v cs s) := by
  obtain ⟨i, action⟩ := s
  cases action with
  | fresh => exact .bind v.reads_cursor fun _ _ => .pure _
  | clone =>
    unfold step
    simp only
    cases cs.get? i with
    | none => exact .pure _
    | some c => exact .pure _
  | next => exact reads_move (Cursor.reads_next v.reads_get)
  | nextBack => exact reads_move (Cursor.reads_nextBack v.reads_get)
  | nth n => exact reads_move (Cursor.reads_nth v.reads_get n)
  | nthBack n => exact reads_move (Cursor.reads_nthBack v.reads_get n)
  | get k => exact reads_peek fun _ => .bind (v.reads_get k) fun _ _ => reads_shown _
  | len => exact reads_peek fun _ => .pure _
  | sizeHint => exact reads_peek fun _ => .pure _
  | count => exact reads_consume fun _ => .pure _
  | last => exact reads_consume fun c => .bind (Cursor.reads_last v.reads_get c) fun _ _ => reads_shown _
  | toList =>
    exact reads_consume fun c => .bind (Cursor.reads_toList v.reads_get e.reads_look c) fun _ _ => .pure _
  | toListRev =>
    exact reads_consume fun c => .bind (Cursor.reads_toListRev v.reads_get e.reads_look c) fun _ _ => .pure _
  | toListSkipping gap =>
    exact reads_consume fun c => .bind (Cursor.reads_toListSkipping v.reads_get e.reads_look gap c) fun _ _ => .pure _
  | push item => cases only
  | pop => exact .bind (Direct.reads_pop e (empty only)) fun _ _ => .pure _

theorem reads_run {vacant : Bool} (empty : vacant → w.Vacant v.handle) :
    ∀ (steps : List CursorStep) (cs : Cursors), (steps.all fun s => s.action.readsOnly vacant) →
      ReadsOnly w (run v cs steps) := by
  intro steps
  induction steps with
  | nil => intro cs _; exact .pure _
  | cons s rest ih =>
    intro cs only
    simp only [List.all_cons, Bool.and_eq_true] at only
    exact .bind (reads_step v empty cs only.1) fun _ _ => .bind (ih _ only.2) fun _ _ => .pure _

theorem reads_start {vacant : Bool} (empty : vacant → w.Vacant v.handle) {steps : List CursorStep}
    (only : steps.all fun s => s.action.readsOnly vacant) : ReadsOnly w (start v steps) :=
  .bind v.reads_cursor fun _ _ => reads_run v empty steps _ only

end Walk

end Custody
