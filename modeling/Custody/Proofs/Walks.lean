/-
  Custody.Proofs.Walks — cursors that fetch through calls walk as cursors over a plain list do.

  `Fetches w fetch f R` says that in the world `w` every fetch is a mere look, and finds what `f`
  finds up to `R`. A cursor then moves as it does over `f`, and leaves the world as it is.
-/
import Custody.Proofs.Owners
import Custody.Proofs.Queue

namespace Custody

variable {w : World}

namespace Element

theorem map_event_pushDeeds (e : Element) : e.pushDeeds.map Deed.event = e.pushEvents := by
  cases e <;> rfl

theorem map_event_pushAll {α : Type} (e : Element) (xs : List α) :
    (xs.flatMap fun _ => e.pushDeeds).map Deed.event = xs.flatMap fun _ => e.pushEvents := by
  simp only [List.map_flatMap, map_event_pushDeeds]

end Element

/-! ## Cursors -/

namespace Cursor

variable {α β γ δ : Type}

def Fetches (w : World) (fetch : UInt64 → Call (Option α)) (f : UInt64 → Id (Option β))
    (R : α → β → Prop) : Prop :=
  ∀ (i : UInt64) (Q : Option α → World → Prop), (∀ x, Option.Rel R x (f i) → Q x w) → wp (fetch i) Q w

/-- A step of a cursor is a mere look too, and the cursor stands where that over `f` stands. -/
def Steps (w : World) (step : Cursor → Call (Option α × Cursor)) (g : Cursor → Id (Option β × Cursor))
    (R : α → β → Prop) : Prop :=
  ∀ (c : Cursor) (Q : Option α × Cursor → World → Prop),
    (∀ x, Option.Rel R x (g c).1 → Q (x, (g c).2) w) → wp (step c) Q w

/-- So is a look at an item. -/
def Looks (w : World) (look : α → Call γ) (look' : β → Id γ) (R : α → β → Prop) : Prop :=
  ∀ (x : α) (y : β), R x y → ∀ Q : γ → World → Prop, Q (look' y) w → wp (look x) Q w

section
variable {fetch : UInt64 → Call (Option α)} {f : UInt64 → Id (Option β)} {R : α → β → Prop}
  (fetches : Fetches w fetch f R)

include fetches

theorem steps_next : Steps w (next fetch) (next f) R := by
  intro c Q post
  unfold next at post ⊢
  split
  · rename_i done
    simp only [done, if_true] at post
    exact wp_pure (post none .none)
  · rename_i more
    simp only [more, if_false] at post
    refine wp_bind (fetches c.front _ fun x rel => ?_)
    simp only [bind] at post
    generalize f c.front = y at rel post
    cases rel with
    | none => exact wp_pure (post none .none)
    | some rel => exact wp_pure (post _ (.some rel))

theorem steps_nextBack : Steps w (nextBack fetch) (nextBack f) R := by
  intro c Q post
  unfold nextBack at post ⊢
  split
  · rename_i done
    simp only [done, if_true] at post
    exact wp_pure (post none .none)
  · rename_i more
    simp only [more, if_false] at post
    refine wp_bind (fetches (c.back - 1) _ fun x rel => ?_)
    simp only [bind] at post
    generalize f (c.back - 1) = y at rel post
    cases rel with
    | none => exact wp_pure (post none .none)
    | some rel => exact wp_pure (post _ (.some rel))

theorem steps_nth (n : UInt64) : Steps w (nth fetch n) (nth f n) R := fun c => steps_next fetches (c.skip n)

theorem wp_skipBack (n : Nat) : ∀ (c : Cursor) {Q : Bool × Cursor → World → Prop},
    Q (skipBack f n c : Id (Bool × Cursor)) w → wp (skipBack fetch n c) Q w := by
  induction n with
  | zero => intro c Q post; exact wp_pure post
  | succ n ih =>
    intro c Q post
    refine wp_bind (steps_nextBack fetches c _ fun x rel => ?_)
    unfold skipBack at post
    simp only [bind] at post
    generalize nextBack f c = r at rel post
    obtain ⟨y, c'⟩ := r
    cases rel with
    | none => exact wp_pure post
    | some rel => exact ih c' post

theorem steps_nthBack (n : UInt64) : Steps w (nthBack fetch n) (nthBack f n) R := by
  intro c Q post
  refine wp_bind (wp_skipBack fetches _ c ?_)
  unfold nthBack at post
  simp only [bind] at post
  generalize skipBack f (min n.toNat (c.remaining.toNat + 1)) c = r at post ⊢
  obtain ⟨all, c'⟩ := r
  cases all with
  | false => exact wp_pure (post none .none)
  | true => exact steps_nextBack fetches c' Q post

end

/-! ### Walks to the end -/

section
variable {step : Cursor → Call (Option α × Cursor)} {g : Cursor → Id (Option β × Cursor)}
  {R : α → β → Prop}
  (steps : Steps w step g R)

include steps

theorem wp_gather {look : α → Call γ} {look' : β → Id γ} (looks : Looks w look look' R) (n : Nat) :
    ∀ (c : Cursor) {Q : List γ → World → Prop}, Q (gather g look' n c : Id (List γ)) w →
      wp (gather step look n c) Q w := by
  induction n with
  | zero => intro c Q post; exact wp_pure post
  | succ n ih =>
    intro c Q post
    refine wp_bind (steps c _ fun x rel => ?_)
    unfold gather at post
    simp only [bind] at post
    generalize g c = r at rel post
    obtain ⟨y, c'⟩ := r
    cases rel with
    | none => exact wp_pure post
    | some rel =>
      refine wp_bind (looks _ _ rel _ ?_)
      refine wp_bind (ih c' ?_)
      exact wp_pure post

theorem wp_lastOf (n : Nat) : ∀ (c : Cursor) {x : Option α} {y : Option β} (_ : Option.Rel R x y)
    {Q : Option α → World → Prop},
    (∀ x, Option.Rel R x (lastOf g n y c : Id (Option β)) → Q x w) → wp (lastOf step n x c) Q w := by
  induction n with
  | zero => intro c x y rel Q post; exact wp_pure (post x rel)
  | succ n ih =>
    intro c x y rel Q post
    refine wp_bind (steps c _ fun x' rel' => ?_)
    unfold lastOf at post
    simp only [bind] at post
    generalize g c = r at rel' post
    obtain ⟨y', c'⟩ := r
    cases rel' with
    | none => exact wp_pure (post x rel)
    | some rel' => exact ih c' (.some rel') post

end

section
variable {fetch : UInt64 → Call (Option α)} {f : UInt64 → Id (Option β)} {R : α → β → Prop}
  (fetches : Fetches w fetch f R) {look : α → Call γ} {look' : β → Id γ} (looks : Looks w look look' R)

include fetches

theorem wp_last (c : Cursor) {Q : Option α → World → Prop}
    (post : ∀ x, Option.Rel R x (c.last f : Id (Option β)) → Q x w) : wp (c.last fetch) Q w :=
  wp_lastOf (steps_next fetches) _ c .none post

include looks

theorem wp_toList (c : Cursor) {Q : List γ → World → Prop} (post : Q (c.toList f look' : Id (List γ)) w) :
    wp (c.toList fetch look) Q w :=
  wp_gather (steps_next fetches) looks _ c post

theorem wp_toListRev (c : Cursor) {Q : List γ → World → Prop}
    (post : Q (c.toListRev f look' : Id (List γ)) w) : wp (c.toListRev fetch look) Q w :=
  wp_gather (steps_nextBack fetches) looks _ c post

theorem wp_toListSkipping (gap : UInt64) (c : Cursor) {Q : List γ → World → Prop}
    (post : Q (c.toListSkipping f look' gap : Id (List γ)) w) : wp (c.toListSkipping fetch look gap) Q w := by
  refine wp_bind (steps_nth fetches 0 c _ fun x rel => ?_)
  unfold toListSkipping at post
  simp only [bind] at post
  generalize c.nth f 0 = r at rel post
  obtain ⟨y, c'⟩ := r
  cases rel with
  | none => exact wp_pure post
  | some rel =>
    refine wp_bind (looks _ _ rel _ ?_)
    refine wp_bind (wp_gather (steps_nth fetches gap) looks _ c' ?_)
    exact wp_pure post

end

end Cursor

/-! ## The store's functions, past owners -/

namespace Direct

theorem wp_lookAt {x : Option Place} {y : Option String} (lends : Option.Rel (Element.text.Lends w) x y)
    {Q : Option String → World → Prop} (post : Q (y.map Wire.words.text) w) : wp (lookAt x) Q w := by
  cases lends with
  | none => exact wp_pure post
  | some lends =>
    apply wp_map
    exact Place.wp_text lends post

section
variable {e : Element} {v : Handle} {xs : List e.Item} (live : w.find v = some (.ofList e xs))

include live

theorem wp_push (x : e.Item) {Q : Unit → World → Prop}
    (post : Q () ((w.put v (.ofList e (xs ++ [Wire.words.item e x]))).counts e.pushEvents)) :
    wp (push e v x) Q w := by
  cases e with
  | text =>
    apply wp_bind
    apply TextCalls.wp_ofView
    intro h fresh
    exact VectorCalls.wp_pushFresh live fresh post
  | scalar p => exact VectorCalls.wp_pushScalar live post

theorem wp_pop {Q : e.Found → World → Prop}
    (post : Q (Wire.words.found e xs.getLast?)
      ((w.put v (.ofList e xs.dropLast)).counts ((e.popDeeds xs).map Deed.event))) :
    wp (pop e v) Q w := by
  cases e with
  | text =>
    refine wp_bind (VectorCalls.wp_popText live (fun empty => ?_) fun t h last fresh => ?_)
    · obtain rfl : xs = [] := List.getLast?_eq_none_iff.mp empty
      simp only [List.dropLast_nil, Element.popDeeds, List.map_nil, World.counts_nil, World.put_self live] at post
      exact wp_pure post
    · have deeds : (Element.text.popDeeds xs).map Deed.event = [.textAlloc, .textFree] := by
        cases xs with
        | nil => cases last
        | cons x xs => rfl
      have ne : h ≠ v := (World.ne_of_live live fresh).symm
      have live' := World.find_put_counts (w.put v (.ofList .text xs.dropLast)) h (.text t) [.textAlloc]
      have gone : (w.put v (.ofList .text xs.dropLast)).find h = none := by
        rw [World.find_put_ne ne, fresh]
      refine wp_bind (Place.wp_text (World.textAt_whole live') ?_)
      refine wp_bind (TextCalls.wp_free live' ?_)
      rw [World.drop_counts, World.drop_put, World.drop_self gone, World.counts_counts]
      rw [deeds, last] at post
      exact wp_pure post
  | scalar p => exact VectorCalls.wp_popScalar live post

theorem wp_get (i : UInt64) {Q : e.Found → World → Prop} (post : Q (Wire.words.found e xs[i.toNat]?) w) :
    wp (get e v i) Q w := by
  cases e with
  | text =>
    refine wp_bind (VectorCalls.wp_getText live ?_)
    exact wp_lookAt (VectorOwner.lends_lentText live i) post
  | scalar p => exact VectorCalls.wp_getScalar live post

theorem wp_getMut (i : UInt64) {Q : e.Found → World → Prop} (post : Q (Wire.words.found e xs[i.toNat]?) w) :
    wp (getMut e v i) Q w := by
  cases e with
  | text =>
    refine wp_bind (VectorCalls.wp_getMutText live ?_)
    exact wp_lookAt (VectorOwner.lends_lentText live i) post
  | scalar p => exact VectorCalls.wp_getMutScalar live post

end

end Direct

/-! ## Walks -/

namespace Walk

variable {e : Element} {v : VectorOwner e} {xs : List e.Item}

theorem wp_shown {x : Option e.Lent} {y : Option e.Item} (lends : Option.Rel (e.Lends w) x y)
    {Q : CursorAnswer → World → Prop} (post : Q (.item e (y.map (Wire.words.item e))) w) :
    wp (shown x) Q w := by
  cases lends with
  | none => exact wp_pure post
  | some lends =>
    refine wp_bind (Element.wp_look lends ?_)
    exact wp_pure post

theorem wp_move {cs : Cursors} {i : Nat} {step : Cursor → Call (Option e.Lent × Cursor)}
    {g : Cursor → Id (Option e.Item × Cursor)} (steps : Cursor.Steps w step g (e.Lends w))
    {Q : CursorAnswer × Cursors → World → Prop} (post : Q (Plain.moveAt .words cs i g) w) :
    wp (move cs i step) Q w := by
  unfold move
  unfold Plain.moveAt Plain.stepAt at post
  cases h : cs.get? i with
  | none =>
    rw [h] at post
    exact wp_pure post
  | some c =>
    rw [h] at post
    refine wp_bind (steps c _ fun x lends => ?_)
    refine wp_bind (wp_shown lends ?_)
    exact wp_pure post

/-- A step that asks something of cursor `i`, which it keeps or uses up. -/
theorem wp_ask {cs : Cursors} {i : Nat} {ask : Cursor → Call CursorAnswer} {after : Cursors}
    {answer : Cursor → CursorAnswer}
    (asks : ∀ (c : Cursor) (Q : CursorAnswer → World → Prop), Q (answer c) w → wp (ask c) Q w)
    {Q : CursorAnswer × Cursors → World → Prop}
    (post : Q (Plain.stepAt cs i fun c => (answer c, after)) w) :
    wp (match cs.get? i with
      | none => pure (.refused .emptySlot, cs)
      | some c => do return (← ask c, after)) Q w := by
  unfold Plain.stepAt at post
  cases h : cs.get? i with
  | none =>
    rw [h] at post
    exact wp_pure post
  | some c =>
    rw [h] at post
    refine wp_bind (asks c _ ?_)
    exact wp_pure post

theorem looks : Cursor.Looks w e.look (Wire.words.item e) (e.Lends w) :=
  fun _ _ lends _ post => Element.wp_look lends post

section
variable (live : w.find v.handle = some (.ofList e xs))

include live

theorem fetches : Cursor.Fetches w v.get (Plain.fetch xs) (e.Lends w) :=
  fun _ _ post => VectorOwner.wp_get live post

theorem wp_walkOver {cs : Cursors} {s : CursorStep} {Q : CursorAnswer × Cursors → World → Prop}
    (noPush : ∀ x, s.action ≠ .push x) (noPop : s.action ≠ .pop)
    (post : Q (Plain.walkOver .words xs cs s.cursor s.action) w) : wp (step v cs s) Q w := by
  have fetches := fetches live
  have looks : Cursor.Looks w e.look (Wire.words.item e) (e.Lends w) := looks
  obtain ⟨i, action⟩ := s
  cases action with
  | fresh =>
    apply wp_bind
    refine wp_bind (VectorOwner.wp_len live ?_)
    apply wp_pure
    exact wp_pure post
  | clone =>
    unfold step
    simp only [Plain.walkOver, Plain.stepAt] at post ⊢
    cases h : cs.get? i with
    | none =>
      rw [h] at post
      exact wp_pure post
    | some c =>
      rw [h] at post
      exact wp_pure post
  | next => exact wp_move (Cursor.steps_next fetches) post
  | nextBack => exact wp_move (Cursor.steps_nextBack fetches) post
  | nth n => exact wp_move (Cursor.steps_nth fetches n) post
  | nthBack n => exact wp_move (Cursor.steps_nthBack fetches n) post
  | get k =>
    refine wp_ask (fun c Q post => ?_) post
    refine wp_bind (VectorOwner.wp_get live fun x lends => ?_)
    exact wp_shown lends post
  | len => exact wp_ask (fun _ _ post => wp_pure post) post
  | sizeHint => exact wp_ask (fun _ _ post => wp_pure post) post
  | count => exact wp_ask (fun _ _ post => wp_pure post) post
  | last =>
    refine wp_ask (fun c Q post => ?_) post
    refine wp_bind (Cursor.wp_last fetches c fun x lends => ?_)
    exact wp_shown lends post
  | toList =>
    refine wp_ask (fun c Q post => ?_) post
    refine wp_bind (Cursor.wp_toList fetches looks c ?_)
    exact wp_pure post
  | toListRev =>
    refine wp_ask (fun c Q post => ?_) post
    refine wp_bind (Cursor.wp_toListRev fetches looks c ?_)
    exact wp_pure post
  | toListSkipping gap =>
    refine wp_ask (fun c Q post => ?_) post
    refine wp_bind (Cursor.wp_toListSkipping fetches looks gap c ?_)
    exact wp_pure post
  | push x => exact absurd rfl (noPush x)
  | pop => exact absurd rfl noPop

end

section
variable (live : w.find v.handle = some (.ofList e xs))

include live

/-- One step of a walk, as over the plain items. -/
theorem wp_step {cs : Cursors} {s : CursorStep} {Q : CursorAnswer × Cursors → World → Prop}
    (post : Q ((Plain.walkStep .words xs cs s).answer, (Plain.walkStep .words xs cs s).cursors)
      ((w.put v.handle (.ofList e (Plain.walkStep .words xs cs s).items)).counts
        ((Plain.walkStep .words xs cs s).deeds.map Deed.event))) :
    wp (step v cs s) Q w := by
  have elsewise : (∀ x, s.action ≠ .push x) → s.action ≠ .pop → wp (step v cs s) Q w := by
    intro noPush noPop
    refine wp_walkOver live noPush noPop ?_
    simp only [Plain.walkStep_over .words noPush noPop, List.map_nil, World.counts_nil, World.put_self live] at post
    exact post
  obtain ⟨i, action⟩ := s
  cases action with
  | push x =>
    obtain ⟨e', x⟩ := x
    unfold step
    unfold Plain.walkStep at post
    by_cases same : e' = e
    · subst same
      simp only [dite_true, Element.map_event_pushDeeds] at post ⊢
      refine wp_bind (Direct.wp_push live x ?_)
      exact wp_pure post
    · simp only [same, dite_false, List.map_nil, World.counts_nil, World.put_self live] at post ⊢
      exact wp_pure post
  | pop =>
    refine wp_bind (Direct.wp_pop live ?_)
    exact wp_pure post
  | _ => exact elsewise nofun nofun

end

/-- A walk shows what it shows over the plain items, and leaves what it leaves of them. -/
theorem wp_run (steps : List CursorStep) : ∀ {w : World} {xs : List e.Item},
    w.find v.handle = some (.ofList e xs) → ∀ {cs : Cursors} {Q : List (CursorAnswer × Option UInt64) → World → Prop},
      Q (Plain.walk .words xs cs steps).1
        ((w.put v.handle (.ofList e (Plain.walk .words xs cs steps).2.1)).counts
          ((Plain.walk .words xs cs steps).2.2.map Deed.event)) →
        wp (run v cs steps) Q w := by
  induction steps with
  | nil =>
    intro w xs live cs Q post
    simp only [Plain.walk, List.map_nil, World.counts_nil, World.put_self live] at post
    exact wp_pure post
  | cons s steps ih =>
    intro w xs live cs Q post
    refine wp_bind (wp_step live ?_)
    refine wp_bind (ih (World.find_put_counts ..) ?_)
    rw [World.put_counts, World.put_put, World.counts_counts, ← List.map_append]
    exact wp_pure post

theorem wp_start (live : w.find v.handle = some (.ofList e xs)) {steps : List CursorStep}
    {Q : List (CursorAnswer × Option UInt64) → World → Prop}
    (post : Q (Plain.walk .words xs (Slots.empty.add (.ofLen (UInt64.ofNat xs.length))) steps).1
      ((w.put v.handle
        (.ofList e (Plain.walk .words xs (Slots.empty.add (.ofLen (UInt64.ofNat xs.length))) steps).2.1)).counts
        ((Plain.walk .words xs (Slots.empty.add (.ofLen (UInt64.ofNat xs.length))) steps).2.2.map Deed.event))) :
    wp (start v steps) Q w := by
  apply wp_bind
  refine wp_bind (VectorOwner.wp_len live ?_)
  apply wp_pure
  exact wp_run steps live post

end Walk

/-! ## Listings -/

namespace VectorOwner

section
variable {e : Element} {v : VectorOwner e} {xs : List e.Item} (live : w.find v.handle = some (.ofList e xs))

include live

theorem wp_toList {Q : List e.Item → World → Prop} (post : Q (Wire.words.items e xs) w) : wp v.toList Q w := by
  apply wp_bind
  refine wp_bind (wp_len live ?_)
  apply wp_pure
  apply Cursor.wp_toList (Walk.fetches live) Walk.looks
  rw [Cursor.toList_holds (Cursor.holds_ofLen_take xs)]
  exact post

theorem wp_debug {Q : String → World → Prop} (post : Q (listing e (Wire.words.items e xs)) w) : wp v.debug Q w := by
  refine wp_bind (wp_toList live ?_)
  exact wp_pure post

end

section
variable {p : Primitive} {v : VectorOwner (.scalar p)} {xs : List p.Value}
  (live : w.find v.handle = some (.ofList (.scalar p) xs))

include live

theorem wp_storageView {Q : View Place → World → Prop}
    (post : Q ⟨some (.item v.handle 0), UInt64.ofNat xs.length⟩ w) : wp v.storageView Q w := by
  refine wp_bind (wp_start live ?_)
  refine wp_bind (wp_len live ?_)
  exact wp_pure post

theorem wp_storage {Q : List p.Value → World → Prop} (post : Q (xs.take (Wire.words.count xs.length)) w) :
    wp v.storage Q w := by
  refine wp_bind (wp_storageView live ?_)
  unfold readView View.isEmpty
  split
  · rename_i empty
    have none : Wire.words.count xs.length = 0 := by
      show (UInt64.ofNat xs.length).toNat = 0
      replace empty : UInt64.ofNat xs.length = 0 := eq_of_beq empty
      rw [empty]
      rfl
    rw [none] at post
    exact wp_pure post
  · refine wp_bind (Store.wp_storageFrom live ?_)
    exact wp_pure post

end

end VectorOwner

end Custody
