/-
  Custody.Proofs.Ideal — where texts and counts fit into words, the wire changes nothing.

  As long as no text in a slot, in a vector or in an operation has 2^64 bytes, and no vector as many
  items, operations on plain values answer and do the same whether their values cross a boundary of
  words or none at all (`run_ideal`).
-/
import Custody.Proofs.Moves

namespace Custody

/-! ## What fits -/

def Element.Fits : (e : Element) → e.Item → Prop
  | .text, t => Wire.Fits t
  | .scalar _, _ => True

def Edit.Fits : Edit → Prop
  | .push piece => Wire.Fits piece
  | .clear => True

def CursorStep.Fits (s : CursorStep) : Prop :=
  match s.action with
  | .push ⟨e, x⟩ => e.Fits x
  | _ => True

/-- The sizes of the texts that the operation brings along are words. -/
def Op.Fits : Op → Prop
  | .textFrom t => Wire.Fits t
  | .editText _ _ edits | .editOwned _ edits | .editItem _ _ edits => ∀ edit ∈ edits, edit.Fits
  | .collectVector e xs | .extend _ e xs => ∀ x ∈ xs, e.Fits x
  | .push _ ⟨e, x⟩ | .directPush _ ⟨e, x⟩ => e.Fits x
  | .walk _ steps => ∀ s ∈ steps, s.Fits
  | _ => True

/-- All entries are `P`. -/
def Slots.All {α : Type} (P : α → Prop) (s : Slots α) : Prop := ∀ c ∈ s.cells.toList, ∀ a ∈ c, P a

/-- The number of items and the sizes of all texts among them are words. -/
def AnyItems.Fit (xs : AnyItems) : Prop := xs.2.length < 2 ^ 64 ∧ ∀ x ∈ xs.2, xs.1.Fits x

/-- The sizes of all that is in slots are words. -/
structure Plain.Fits (p : Plain) : Prop where
  texts : p.texts.All Wire.Fits
  owned : p.owned.All Wire.Fits
  released : p.released.All Wire.Fits
  vectors : p.vectors.All AnyItems.Fit
  releasedVectors : p.releasedVectors.All AnyItems.Fit

instance (t : String) : Decidable (Wire.Fits t) := inferInstanceAs (Decidable (_ < _))

instance : (e : Element) → (x : e.Item) → Decidable (e.Fits x)
  | .text, t => inferInstanceAs (Decidable (Wire.Fits t))
  | .scalar _, _ => .isTrue trivial

instance (xs : AnyItems) : Decidable xs.Fit := inferInstanceAs (Decidable (_ ∧ _))

instance {α : Type} (P : α → Prop) [DecidablePred P] (s : Slots α) : Decidable (s.All P) :=
  inferInstanceAs (Decidable (∀ c ∈ s.cells.toList, ∀ a ∈ c, P a))

instance (p : Plain) : Decidable p.Fits :=
  decidable_of_iff (p.texts.All Wire.Fits ∧ p.owned.All Wire.Fits ∧ p.released.All Wire.Fits ∧
      p.vectors.All AnyItems.Fit ∧ p.releasedVectors.All AnyItems.Fit)
    ⟨fun ⟨t, o, r, v, rv⟩ => ⟨t, o, r, v, rv⟩, fun ⟨t, o, r, v, rv⟩ => ⟨t, o, r, v, rv⟩⟩

theorem Slots.All.get {α : Type} {P : α → Prop} {s : Slots α} (all : s.All P) {i : Nat} {a : α}
    (at_i : s.get? i = some a) : P a := by
  have cell : s.cells[i]? = some (some a) := Option.join_eq_some_iff.mp at_i
  exact all (some a) (Array.mem_toList_iff.mpr (Array.mem_of_getElem? cell)) a rfl

/-! ## The wire -/

namespace Wire

variable {e : Element}

theorem item_fits {x : e.Item} (h : e.Fits x) : words.item e x = ideal.item e x := by
  cases e with
  | text => exact words_text h
  | scalar q => rfl

theorem map_item_fits {xs : List e.Item} (h : ∀ x ∈ xs, e.Fits x) :
    xs.map (words.item e) = xs.map (ideal.item e) := List.map_congr_left fun x mem => item_fits (h x mem)

theorem item?_fits {x : Option e.Item} (h : ∀ y, x = some y → e.Fits y) :
    x.map (words.item e) = x.map (ideal.item e) := by
  cases x with
  | none => rfl
  | some y => exact congrArg some (item_fits (h y rfl))

theorem found_fits {x : Option e.Item} (h : ∀ y, x = some y → e.Fits y) : words.found e x = ideal.found e x := by
  cases e with
  | text => exact item?_fits (e := .text) h
  | scalar q => rfl

theorem items_fits {xs : List e.Item} (few : xs.length < 2 ^ 64) (h : ∀ x ∈ xs, e.Fits x) :
    words.items e xs = ideal.items e xs := by
  rw [items, items, words_count few]
  exact List.map_congr_left fun x mem => item_fits (h x (List.mem_of_mem_take mem))

theorem reading_fits {t : String} (h : Fits t) : words.reading t = ideal.reading t := by
  rw [reading, reading, words_text h, words_text (fits_trim h)]
  rfl

theorem foldl_edit_fits {edits : List Edit} (h : ∀ edit ∈ edits, edit.Fits) : ∀ t : String,
    edits.foldl words.edit t = edits.foldl ideal.edit t := by
  induction edits with
  | nil => intro t; rfl
  | cons edit edits ih =>
    intro t
    have first : words.edit t edit = ideal.edit t edit := by
      cases edit with
      | push piece => exact congrArg (t ++ ·) (words_text (h _ List.mem_cons_self))
      | clear => rfl
    rw [List.foldl_cons, List.foldl_cons, first]
    exact ih (fun edit mem => h edit (List.mem_cons_of_mem _ mem)) _

theorem ideal_item (x : e.Item) : ideal.item e x = x := by
  cases e <;> rfl

theorem map_ideal_item (xs : List e.Item) : xs.map (ideal.item e) = xs := by
  have same : ideal.item e = id := funext ideal_item
  rw [same, List.map_id]

/-- Items that fit arrive as they are. -/
theorem words_items {xs : List e.Item} (few : xs.length < 2 ^ 64) (h : ∀ x ∈ xs, e.Fits x) : words.items e xs = xs := by
  rw [items, words_count few, List.take_length, map_item_fits h, map_ideal_item]

end Wire

/-! ## Cursors find what is there -/

namespace Cursor

variable {α β : Type} {f : UInt64 → Id (Option α)} {P : α → Prop}

/-- All items that the steps find are `P`. -/
def Finds (P : α → Prop) (step : Cursor → Id (Option α × Cursor)) : Prop := ∀ c x, (step c).1 = some x → P x

section
variable (there : ∀ i x, f i = some x → P x)

include there

theorem finds_next : Finds P (next f) := by
  intro c x found
  unfold next at found
  split at found
  · cases found
  · simp only [bind] at found
    cases item : f c.front with
    | none =>
      rw [item] at found
      cases found
    | some y =>
      rw [item] at found
      cases found
      exact there _ _ item

theorem finds_nextBack : Finds P (nextBack f) := by
  intro c x found
  unfold nextBack at found
  split at found
  · cases found
  · simp only [bind] at found
    cases item : f (c.back - 1) with
    | none =>
      rw [item] at found
      cases found
    | some y =>
      rw [item] at found
      cases found
      exact there _ _ item

theorem finds_nth (n : UInt64) : Finds P (nth f n) := fun c => finds_next there (c.skip n)

theorem finds_nthBack (n : UInt64) : Finds P (nthBack f n) := by
  intro c x found
  unfold nthBack at found
  simp only [bind] at found
  generalize skipBack f (min n.toNat (c.remaining.toNat + 1)) c = r at found
  obtain ⟨all, c'⟩ := r
  cases all with
  | false => cases found
  | true => exact finds_nextBack there c' x found

end

section
variable {step : Cursor → Id (Option α × Cursor)} (finds : Finds P step)

include finds

theorem gather_congr {look look' : α → Id β} (same : ∀ x, P x → look x = look' x) (n : Nat) :
    ∀ c, (gather step look n c : Id (List β)) = gather step look' n c := by
  induction n with
  | zero => intro c; rfl
  | succ n ih =>
    intro c
    unfold gather
    simp only [bind]
    have here := finds c
    generalize step c = r at here
    obtain ⟨x, c'⟩ := r
    cases x with
    | none => rfl
    | some x =>
      simp only [same x (here x rfl)]
      rw [ih c']

theorem lastOf_finds (n : Nat) : ∀ (last : Option α) (c : Cursor), (∀ x, last = some x → P x) →
    ∀ x, (lastOf step n last c : Id (Option α)) = some x → P x := by
  induction n with
  | zero => intro last c known x found; exact known x found
  | succ n ih =>
    intro last c known x found
    unfold lastOf at found
    simp only [bind] at found
    have here := finds c
    generalize step c = r at here found
    obtain ⟨y, c'⟩ := r
    cases y with
    | none => exact known x found
    | some y => exact ih (some y) c' (fun z same => here z same) x found

end

end Cursor

namespace Plain

/-! ## Walks -/

section
variable {e : Element} {xs : List e.Item} (fits : ∀ x ∈ xs, e.Fits x)

include fits

theorem fetch_fits (i : UInt64) (x : e.Item) (found : fetch xs i = some x) : e.Fits x :=
  fits x (List.mem_of_getElem? found)

omit fits in
theorem moveAt_fits {step : Cursor → Option e.Item × Cursor} (finds : Cursor.Finds e.Fits step) (cs : Cursors)
    (i : Nat) :
    moveAt .words cs i step = moveAt .ideal cs i step := by
  unfold moveAt
  refine congrArg (stepAt cs i) (funext fun c => ?_)
  rw [Wire.item?_fits (finds c)]

theorem walkOver_fits (cs : Cursors) (i : Nat) (action : CursorAction) :
    walkOver .words xs cs i action = walkOver .ideal xs cs i action := by
  have there := fetch_fits fits
  have looks : ∀ x, e.Fits x → (Wire.words.item e x : Id e.Item) = Wire.ideal.item e x := by
    intro x h
    exact Wire.item_fits h
  cases action with
  | next => exact moveAt_fits (Cursor.finds_next there) cs i
  | nextBack => exact moveAt_fits (Cursor.finds_nextBack there) cs i
  | nth n => exact moveAt_fits (Cursor.finds_nth there n) cs i
  | nthBack n => exact moveAt_fits (Cursor.finds_nthBack there n) cs i
  | get k =>
    rw [walkOver, walkOver, Wire.item?_fits (x := xs[k.toNat]?) fun y found => fetch_fits fits k y found]
  | last =>
    refine congrArg (stepAt cs i) (funext fun c => ?_)
    have finds := Cursor.lastOf_finds (Cursor.finds_next there) c.remaining.toNat none c nofun
    rw [Wire.item?_fits (x := c.last (fetch xs)) finds]
  | toList =>
    refine congrArg (stepAt cs i) (funext fun c => ?_)
    have same := Cursor.gather_congr (Cursor.finds_next there) looks c.remaining.toNat c
    rw [show c.toList (fetch xs) (Wire.words.item e) = c.toList (fetch xs) (Wire.ideal.item e) from same]
  | toListRev =>
    refine congrArg (stepAt cs i) (funext fun c => ?_)
    have same := Cursor.gather_congr (Cursor.finds_nextBack there) looks c.remaining.toNat c
    rw [show c.toListRev (fetch xs) (Wire.words.item e) = c.toListRev (fetch xs) (Wire.ideal.item e) from same]
  | toListSkipping gap =>
    refine congrArg (stepAt cs i) (funext fun c => ?_)
    have same : c.toListSkipping (fetch xs) (Wire.words.item e) gap =
        c.toListSkipping (fetch xs) (Wire.ideal.item e) gap := by
      unfold Cursor.toListSkipping
      simp only [bind]
      have here := Cursor.finds_nth there 0 c
      generalize c.nth (fetch xs) 0 = r at here
      obtain ⟨x, c'⟩ := r
      cases x with
      | none => rfl
      | some x =>
        simp only [looks x (here x rfl)]
        rw [Cursor.gather_congr (Cursor.finds_nth there gap) looks]
    rw [same]
  | _ => rfl

theorem walkStep_fits (cs : Cursors) {s : CursorStep} (stepFits : s.Fits) :
    walkStep .words xs cs s = walkStep .ideal xs cs s ∧ ∀ x ∈ (walkStep .ideal xs cs s).items, e.Fits x := by
  have elsewise : (∀ x, s.action ≠ .push x) → s.action ≠ .pop →
      walkStep .words xs cs s = walkStep .ideal xs cs s ∧ ∀ x ∈ (walkStep .ideal xs cs s).items, e.Fits x := by
    intro noPush noPop
    rw [walkStep_over .words noPush noPop, walkStep_over .ideal noPush noPop, walkOver_fits fits]
    exact ⟨rfl, fits⟩
  obtain ⟨i, action⟩ := s
  cases action with
  | push x =>
    obtain ⟨e', x⟩ := x
    unfold walkStep
    by_cases same : e' = e
    · subst same
      have arrives : Wire.words.item e' x = Wire.ideal.item e' x := Wire.item_fits stepFits
      simp only [dite_true, arrives, Wire.ideal_item]
      refine ⟨trivial, fun y mem => ?_⟩
      rcases List.mem_append.mp mem with mem | mem
      · exact fits y mem
      · rw [List.mem_singleton.mp mem]
        exact stepFits
    · simp only [same, dite_false]
      exact ⟨trivial, fits⟩
  | pop =>
    refine ⟨?_, fun x mem => fits x (List.dropLast_subset _ mem)⟩
    rw [walkStep, walkStep, Wire.found_fits fun y last => fits y (List.mem_of_getLast? last)]
  | _ => exact elsewise nofun nofun

end

theorem walk_fits {e : Element} (steps : List CursorStep) : ∀ {xs : List e.Item} (cs : Cursors),
    (∀ x ∈ xs, e.Fits x) → (∀ s ∈ steps, s.Fits) → walk .words xs cs steps = walk .ideal xs cs steps := by
  induction steps with
  | nil => intro xs cs _ _; rfl
  | cons s steps ih =>
    intro xs cs fits stepFits
    obtain ⟨same, items⟩ := walkStep_fits fits cs (stepFits s List.mem_cons_self)
    rw [walk, walk, same]
    have rest := ih (walkStep .ideal xs cs s).cursors items fun s mem => stepFits s (List.mem_cons_of_mem _ mem)
    simp only [rest]

/-! ## Operations -/

section
variable {p : Plain}

/-- What is found in a vector fits. -/
theorem Fits.item (fits : p.Fits) {v i : Nat} {e : Element} {xs : List e.Item} {x : e.Item}
    (at_v : p.vectors.get? v = some ⟨e, xs⟩) (at_i : xs[i]? = some x) : e.Fits x :=
  (fits.vectors.get at_v).2 x (List.mem_of_getElem? at_i)

theorem Fits.last (fits : p.Fits) {v : Nat} {e : Element} {xs : List e.Item} {x : e.Item}
    (at_v : p.vectors.get? v = some ⟨e, xs⟩) (last : xs.getLast? = some x) : e.Fits x :=
  (fits.vectors.get at_v).2 x (List.mem_of_getLast? last)

theorem run_peek {α : Type} (t : Table α) {i : Nat} {v : α} (at_i : (t.of p).get? i = some v) :
    (t.peek i).run p = .ok (v, p) := by
  simp [Table.peek, at_i]
  rfl

theorem run_peek_none {α : Type} (t : Table α) {i : Nat} (at_i : (t.of p).get? i = none) :
    (t.peek i).run p = .error .emptySlot := by
  simp [Table.peek, at_i]
  rfl

theorem run_itemsOf {e : Element} {v : Nat} {xs : List e.Item} (at_v : p.vectors.get? v = some ⟨e, xs⟩) :
    (itemsOf e v).run p = .ok (xs, p) := by
  rw [itemsOf, StateT.run_bind, run_peek .vectors at_v]
  show (if same : e = e then Pure.pure (same ▸ xs) else throw Refusal.wrongElement : Act (List e.Item)).run p = _
  simp only [dite_true]
  rfl

/-- Two actions that begin with the same look go on with the same value, or not at all. -/
theorem peek_congr {α β : Type} (t : Table α) {i : Nat} {f g : α → Act β}
    (same : ∀ v, (t.of p).get? i = some v → (f v).run p = (g v).run p) :
    (t.peek i >>= f).run p = (t.peek i >>= g).run p := by
  rw [StateT.run_bind, StateT.run_bind]
  cases at_i : (t.of p).get? i with
  | none =>
    rw [run_peek_none t at_i]
    rfl
  | some v =>
    rw [run_peek t at_i]
    exact same v at_i

theorem itemsOf_congr {β : Type} {e : Element} {v : Nat} {f g : List e.Item → Act β}
    (same : ∀ xs, p.vectors.get? v = some ⟨e, xs⟩ → (f xs).run p = (g xs).run p) :
    (itemsOf e v >>= f).run p = (itemsOf e v >>= g).run p := by
  rw [itemsOf, bind_assoc, bind_assoc]
  refine peek_congr .vectors fun ⟨e', xs⟩ at_v => ?_
  by_cases here : e' = e
  · subst here
    simp only [dite_true, pure_bind]
    exact same xs at_v
  · simp only [here, dite_false]
    rfl

/-- After its edits, a text fits if all that is there then does. -/
theorem Fits.edited {i : Nat} {via : Access} {edits : List Edit} {t : String} (at_i : p.texts.get? i = some t)
    (after : Ends (perform .ideal (.editText i via edits)) p fun _ p' => p'.Fits) :
    Wire.Fits (edits.foldl Wire.ideal.edit t) := by
  have fits := after _ _ (by rw [perform, StateT.run_bind, run_peek .texts at_i]; rfl)
  refine fits.texts.get (i := i) ?_
  show (p.texts.put i (edits.foldl Wire.ideal.edit t)).get? i = _
  rw [Slots.get?_put, if_pos ⟨rfl, Slots.lt_next_of_get? at_i⟩]

theorem Fits.editedOwned {i : Nat} {edits : List Edit} {t : String} (at_i : p.owned.get? i = some t)
    (after : Ends (perform .ideal (.editOwned i edits)) p fun _ p' => p'.Fits) :
    Wire.Fits (edits.foldl Wire.ideal.edit t) := by
  have fits := after _ _ (by rw [perform, StateT.run_bind, run_peek .owned at_i]; rfl)
  refine fits.owned.get (i := i) ?_
  show (p.owned.put i (edits.foldl Wire.ideal.edit t)).get? i = _
  rw [Slots.get?_put, if_pos ⟨rfl, Slots.lt_next_of_get? at_i⟩]

theorem Fits.editedItem {v : Nat} {i : UInt64} {edits : List Edit} {ts : List String} {t : String}
    (at_v : p.vectors.get? v = some ⟨.text, ts⟩) (at_i : ts[i.toNat]? = some t)
    (after : Ends (perform .ideal (.editItem v i edits)) p fun _ p' => p'.Fits) :
    Wire.Fits (edits.foldl Wire.ideal.edit t) := by
  have fits := after _ _ (by
    rw [perform, StateT.run_bind, run_itemsOf at_v]
    simp only [bind, Except.bind, at_i]
    rfl)
  have there : (p.vectors.put v ⟨.text, ts.set i.toNat (edits.foldl Wire.ideal.edit t)⟩).get? v =
      some ⟨.text, ts.set i.toNat (edits.foldl Wire.ideal.edit t)⟩ := by
    rw [Slots.get?_put, if_pos ⟨rfl, Slots.lt_next_of_get? at_v⟩]
  exact (fits.vectors.get there).2 _ (List.mem_set (List.getElem?_eq_some_iff.mp at_i).1 _)

theorem perform_fits {op : Op} (fits : p.Fits) (opFits : op.Fits)
    (after : Ends (perform .ideal op) p fun _ p' => p'.Fits) :
    (perform .words op).run p = (perform .ideal op).run p := by
  cases op with
  | textFrom t =>
    rw [perform, perform, Wire.words_text opFits]
    rfl
  | readText i via =>
    refine peek_congr .texts fun t at_i => ?_
    rw [Wire.reading_fits (fits.texts.get at_i)]
  | editText i via edits =>
    refine peek_congr .texts fun t at_i => ?_
    simp only [Wire.foldl_edit_fits opFits, Wire.words_text (Fits.edited at_i after)]
    rfl
  | compareWithText i u =>
    refine peek_congr .texts fun t at_i => ?_
    rw [Wire.words_text (fits.texts.get at_i)]
    rfl
  | readOwned i =>
    refine peek_congr .owned fun t at_i => ?_
    rw [Wire.words_text (fits.owned.get at_i)]
    rfl
  | editOwned i edits =>
    refine peek_congr .owned fun t at_i => ?_
    simp only [Wire.foldl_edit_fits opFits, Wire.words_text (Fits.editedOwned at_i after)]
    rfl
  | collectVector e xs => rw [perform, perform, Wire.map_item_fits opFits]
  | push v x =>
    obtain ⟨e, x⟩ := x
    have same : Wire.words.item e x = Wire.ideal.item e x := Wire.item_fits opFits
    refine itemsOf_congr fun xs _ => ?_
    rw [same]
  | extend v e ys =>
    refine itemsOf_congr fun xs _ => ?_
    rw [Wire.map_item_fits opFits]
  | pop v =>
    refine peek_congr .vectors fun ⟨e, xs⟩ at_v => ?_
    cases e with
    | text =>
      show (popItem .words v .text xs).run p = (popItem .ideal v .text xs).run p
      rw [popItem, popItem]
      cases last : xs.getLast? with
      | none => rfl
      | some t =>
        have arrives : Wire.words.text t = Wire.ideal.text t := Wire.words_text (fits.last at_v last)
        simp only [arrives]
    | scalar q => rfl
  | get v i =>
    refine peek_congr .vectors fun ⟨e, xs⟩ at_v => ?_
    have same := Wire.item?_fits (x := xs[i.toNat]?) fun y found => fits.item at_v found
    simp only [same]
  | getMut v i =>
    refine peek_congr .vectors fun ⟨e, xs⟩ at_v => ?_
    have same := Wire.item?_fits (x := xs[i.toNat]?) fun y found => fits.item at_v found
    simp only [same]
  | itemAt v i =>
    refine peek_congr .vectors fun ⟨e, xs⟩ at_v => ?_
    dsimp only
    cases found : xs[i.toNat]? with
    | none => rfl
    | some x =>
      have same : Wire.words.item e x = Wire.ideal.item e x := Wire.item_fits (fits.item at_v found)
      simp only [same]
  | debugVector v =>
    refine peek_congr .vectors fun ⟨e, xs⟩ at_v => ?_
    have same := Wire.items_fits (fits.vectors.get at_v).1 (fits.vectors.get at_v).2
    simp only [same]
  | listVector v =>
    refine peek_congr .vectors fun ⟨e, xs⟩ at_v => ?_
    have same := Wire.items_fits (fits.vectors.get at_v).1 (fits.vectors.get at_v).2
    simp only [same]
  | sliceVector v =>
    refine peek_congr .vectors fun ⟨e, xs⟩ at_v => ?_
    cases e with
    | text => rfl
    | scalar q =>
      show (Pure.pure (Answer.slice q (xs.take (Wire.words.count xs.length)) _ _ _) : Act Answer).run p = _
      rw [Wire.words_count (fits.vectors.get at_v).1]
      rfl
  | editItem v i edits =>
    refine itemsOf_congr fun ts at_v => ?_
    cases at_i : ts[i.toNat]? with
    | none => rfl
    | some t =>
      simp only [Wire.foldl_edit_fits opFits, Wire.reading_fits (Fits.editedItem at_v at_i after)]
  | readItem v i =>
    refine itemsOf_congr fun ts at_v => ?_
    cases at_i : ts[i.toNat]? with
    | none => rfl
    | some t =>
      rw [Option.map_some, Option.map_some, Wire.reading_fits (fits.item at_v at_i)]
  | walk v steps =>
    refine peek_congr .vectors fun ⟨e, xs⟩ at_v => ?_
    have same := walk_fits steps (Slots.empty.add (.ofLen (UInt64.ofNat xs.length))) (fits.vectors.get at_v).2 opFits
    simp only [same]
  | directPush v x =>
    obtain ⟨e, x⟩ := x
    have same : Wire.words.item e x = Wire.ideal.item e x := Wire.item_fits opFits
    refine itemsOf_congr fun xs _ => ?_
    rw [same]
  | directPop v =>
    refine peek_congr .vectors fun ⟨e, xs⟩ at_v => ?_
    have same := Wire.found_fits (x := xs.getLast?) fun y last => fits.last at_v last
    simp only [same]
  | directGet v i =>
    refine peek_congr .vectors fun ⟨e, xs⟩ at_v => ?_
    have same := Wire.found_fits (x := xs[i.toNat]?) fun y found => fits.item at_v found
    simp only [same]
  | directGetMut v i =>
    refine peek_congr .vectors fun ⟨e, xs⟩ at_v => ?_
    have same := Wire.found_fits (x := xs[i.toNat]?) fun y found => fits.item at_v found
    simp only [same]
  | _ => rfl

theorem step_fits {op : Op} (fits : p.Fits) (opFits : op.Fits) (after : (p.step .ideal op).2.Fits) :
    p.step .words op = p.step .ideal op := by
  have same := perform_fits fits opFits fun y p' run => by
    rw [step, run] at after
    exact after
  rw [step, step, same]

/-- Everything fits at every point of a run. -/
def FitsAlong : Plain → List Op → Prop
  | p, [] => p.Fits
  | p, op :: ops => p.Fits ∧ op.Fits ∧ FitsAlong (p.step .ideal op).2 ops

theorem FitsAlong.fits {ops : List Op} (along : p.FitsAlong ops) : p.Fits := by
  cases ops with
  | nil => exact along
  | cons op ops => exact along.1

end

theorem FitsAlong.end {ops : List Op} : ∀ {p : Plain}, p.FitsAlong ops → (p.run .ideal ops).2.Fits := by
  induction ops with
  | nil => intro p along; exact along
  | cons op ops ih => intro p along; exact ih along.2.2

/-- A run answers and does the same over words as over an ideal wire. -/
theorem run_fits (ops : List Op) : ∀ {p : Plain}, p.FitsAlong ops → p.run .words ops = p.run .ideal ops := by
  induction ops with
  | nil => intro p _; rfl
  | cons op ops ih =>
    intro p along
    obtain ⟨fits, opFits, rest⟩ := along
    rw [run, run, step_fits fits opFits rest.fits]
    simp only [ih rest]

end Plain

end Custody
