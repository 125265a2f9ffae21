/-
  Custody.Proofs.Chronicle — where each text came from, followed wherever it is moved.

  A `Chronicle` has the slots of a session, and in them for each text its `History`: what it was made of and
  the edits since. Operations move histories about as they move texts, and write their edits down; what the
  text is then, `History.text` says without following the edits one by one. Plain values are always those that
  the chronicle tells of (`run_tracks`): one lemma for each way to change a slot, then for each operation.
-/
import Mathlib.Data.List.DropRight
import Custody.Proofs.Ideal

namespace Custody

/-! ## Histories -/

def Edit.piece? : Edit → Option String
  | .push t => some t
  | .clear => none

/-- What a text was made of, and the edits since, the first one first. -/
structure History where
  born : String
  edits : List Edit

namespace History

/-- A text that was just made. -/
def made (t : String) : History := ⟨t, []⟩

def edited (edits : List Edit) (h : History) : History := { h with edits := h.edits ++ edits }

/-- What the text was made of, or nothing once it has been cleared. -/
def base (h : History) : String := if .clear ∈ h.edits then "" else h.born

/-- What was pushed since the text was made or last cleared, in order. -/
def pieces (h : History) : List String := (h.edits.rtakeWhile (· ≠ .clear)).filterMap Edit.piece?

def text (h : History) : String := h.base ++ String.join h.pieces

@[simp] theorem text_made (t : String) : (made t).text = t := by
  simp [made, text, base, pieces, String.join]

theorem text_push (h : History) (t : String) : (h.edited [.push t]).text = h.text ++ t := by
  have base : (h.edited [.push t]).base = h.base := by simp [History.base, edited]
  have pieces : (h.edited [.push t]).pieces = h.pieces ++ [t] := by
    simp [History.pieces, edited, Edit.piece?]
  simp [text, base, pieces, String.append_assoc]

theorem text_clear (h : History) : (h.edited [.clear]).text = "" := by
  simp [text, base, pieces, edited, String.join]

theorem text_edited (edits : List Edit) : ∀ h : History,
    (h.edited edits).text = edits.foldl Wire.ideal.edit h.text := by
  induction edits with
  | nil => intro h; simp [edited]
  | cons edit edits ih =>
    intro h
    have first : (h.edited [edit]).text = Wire.ideal.edit h.text edit := by
      cases edit with
      | push t => exact text_push h t
      | clear => exact text_clear h
    have rest := ih (h.edited [edit])
    rw [first] at rest
    rw [List.foldl_cons, ← rest]
    simp [edited]

end History

/-! ## Chronicles -/

namespace Slots

variable {α β : Type} (f : α → β) (s : Slots α)

/-- The same slots with what `f` makes of their values. -/
def map : Slots β := ⟨s.cells.map (Option.map f)⟩

theorem get?_map (i : Nat) : (s.map f).get? i = (s.get? i).map f := by
  simp only [map, get?, Array.getElem?_map]
  cases s.cells[i]? <;> rfl

theorem map_empty : (empty : Slots α).map f = empty := by simp [map, empty]

theorem map_add (a : α) : (s.add a).map f = (s.map f).add (f a) := by simp [map, add]

theorem map_put (i : Nat) (a : α) : (s.put i a).map f = (s.map f).put i (f a) := by
  simp [map, put]

theorem map_clear (i : Nat) : (s.clear i).map f = (s.map f).clear i := by
  simp [map, clear]

end Slots

namespace Element

/-- An item, with its history if it is a text. -/
abbrev Tracked : Element → Type
  | .text => History
  | .scalar p => p.Value

/-- An item that is new. -/
def track : (e : Element) → e.Item → e.Tracked
  | .text, t => .made t
  | .scalar _, x => x

/-- The item itself. -/
def reveal : (e : Element) → e.Tracked → e.Item
  | .text, h => h.text
  | .scalar _, x => x

theorem reveal_track (e : Element) (x : e.Item) : e.reveal (e.track x) = x := by
  cases e with
  | text => exact History.text_made x
  | scalar p => rfl

theorem map_reveal_track {e : Element} (xs : List e.Item) : (xs.map e.track).map e.reveal = xs := by
  have same : e.reveal ∘ e.track = id := funext e.reveal_track
  rw [List.map_map, same, List.map_id]

end Element

abbrev AnyTracked := (e : Element) × List e.Tracked

namespace Shelf

/-- What a chronicle has in a slot … -/
abbrev Tracked : Shelf → Type
  | texts | owned | released => History
  | vectors | releasedVectors => AnyTracked

/-- … and what it tells of. -/
def reveal : (k : Shelf) → k.Tracked → k.Value
  | texts, h | owned, h | released, h => h.text
  | vectors, xs | releasedVectors, xs => ⟨xs.1, xs.2.map xs.1.reveal⟩

end Shelf

/-- Histories in the slots of a session. -/
abbrev Chronicle := (k : Shelf) → Slots k.Tracked

namespace Chronicle

def start : Chronicle := fun _ => .empty

variable (c : Chronicle)

def set (k : Shelf) (t : Slots k.Tracked) : Chronicle := Function.update c k t

/-- A new value takes the next slot. -/
def add (k : Shelf) (x : k.Tracked) : Chronicle := c.set k ((c k).add x)

def clear (k : Shelf) (i : Nat) : Chronicle := c.set k ((c k).clear i)

def put (k : Shelf) (i : Nat) (x : k.Tracked) : Chronicle := c.set k ((c k).put i x)

/-- Changes what is in a slot, if anything is. -/
def change (k : Shelf) (i : Nat) (f : k.Tracked → k.Tracked) : Chronicle :=
  match (c k).get? i with
  | none => c
  | some x => c.put k i (f x)

/-- Moves what is in a slot to the next slot of another table. -/
def hand (k k' : Shelf) (f : k.Tracked → k'.Tracked) (i : Nat) : Chronicle :=
  match (c k).get? i with
  | none => c
  | some x => (c.clear k i).add k' (f x)

/-- Changes the items of a vector, if there is one of that type. -/
def changeItems (e : Element) (v : Nat) (f : List e.Tracked → List e.Tracked) : Chronicle :=
  match (c .vectors).get? v with
  | none => c
  | some ⟨e', xs⟩ => if same : e' = e then c.put .vectors v ⟨e, f (same ▸ xs)⟩ else c

/-- Takes texts out of their slots, up to the first slot that is empty. -/
def gather : List Nat → Chronicle → Chronicle
  | [], c => c
  | i :: rest, c =>
    match (c .texts).get? i with
    | none => c
    | some _ => gather rest (c.clear .texts i)

/-- Items after one step of a walk … -/
def walkStep {e : Element} (xs : List e.Tracked) (s : CursorStep) : List e.Tracked :=
  match s.action with
  | .push ⟨e', x⟩ => if same : e' = e then xs ++ [e.track (same ▸ x)] else xs
  | .pop => xs.dropLast
  | _ => xs

/-- … and after all of them. -/
def walk {e : Element} (xs : List e.Tracked) (steps : List CursorStep) : List e.Tracked := steps.foldl walkStep xs

/-- The last item of a vector moved out; a text goes to a slot of its own. -/
def popItem (v : Nat) : AnyTracked → Chronicle
  | ⟨.text, hs⟩ =>
    match hs.getLast? with
    | none => c
    | some h => (c.put .vectors v ⟨.text, hs.dropLast⟩).add .texts h
  | ⟨.scalar p, xs⟩ => c.put .vectors v ⟨.scalar p, xs.dropLast⟩

/-- An owned text moved into a vector. -/
def pushText (v : Nat) (hs : List History) (i : Nat) : Chronicle :=
  match (c .texts).get? i with
  | none => c
  | some h => (c.clear .texts i).put .vectors v ⟨.text, hs ++ [h]⟩

def step : Op → Chronicle
  | .newText => c.add .texts (.made "")
  | .textFrom t => c.add .texts (.made t)
  | .editText i _ edits => c.change .texts i (.edited edits)
  | .editOwned i edits => c.change .owned i (.edited edits)
  | .dropText i => c.clear .texts i
  | .dropOwned i => c.clear .owned i
  | .freeReleased i => c.clear .released i
  | .dropVector v => c.clear .vectors v
  | .countDistinct slots => gather slots c
  | .releaseText i => c.hand .texts .released id i
  | .releaseOwned i => c.hand .owned .released id i
  | .releaseVector v => c.hand .vectors .releasedVectors id v
  | .adoptText i => c.hand .released .texts id i
  | .adoptOwned i => c.hand .released .owned id i
  | .adoptVector i => c.hand .releasedVectors .vectors id i
  | .newVector e => c.add .vectors ⟨e, []⟩
  | .collectVector e xs => c.add .vectors ⟨e, xs.map e.track⟩
  | .push v ⟨e, x⟩ | .directPush v ⟨e, x⟩ => c.changeItems e v (· ++ [e.track x])
  | .extend v e ys => c.changeItems e v (· ++ ys.map e.track)
  | .editItem v i edits => c.changeItems .text v (List.modify · i.toNat (History.edited edits))
  | .walk v steps => c.change .vectors v fun xs => ⟨xs.1, walk xs.2 steps⟩
  | .directPop v => c.change .vectors v fun xs => ⟨xs.1, xs.2.dropLast⟩
  | .pop v =>
    match (c .vectors).get? v with
    | none => c
    | some xs => c.popItem v xs
  | .pushText v i =>
    match (c .vectors).get? v with
    | some ⟨.text, hs⟩ => c.pushText v hs i
    | _ => c
  | _ => c

def run (ops : List Op) : Chronicle := ops.foldl step c

variable {c}

theorem clear_self {k : Shelf} {i : Nat} (absent : (c k).get? i = none) : c.clear k i = c := by
  rw [clear, Slots.clear_self absent, set, Function.update_eq_self]

theorem put_self {k : Shelf} {i : Nat} {x : k.Tracked} (at_i : (c k).get? i = some x) : c.put k i x = c := by
  rw [put, Slots.put_self at_i, set, Function.update_eq_self]

theorem changeItems_eq {e : Element} {v : Nat} {xs : List e.Tracked} (at_v : (c .vectors).get? v = some ⟨e, xs⟩)
    (f : List e.Tracked → List e.Tracked) : c.changeItems e v f = c.put .vectors v ⟨e, f xs⟩ := by
  rw [changeItems, at_v]
  simp only [dite_true]

theorem changeItems_other {e : Element} {v : Nat} (other : ∀ xs, (c .vectors).get? v ≠ some ⟨e, xs⟩)
    (f : List e.Tracked → List e.Tracked) : c.changeItems e v f = c := by
  unfold changeItems
  cases at_v : (c .vectors).get? v with
  | none => rfl
  | some x =>
    obtain ⟨e', xs⟩ := x
    have ne : e' ≠ e := by
      intro same
      subst same
      exact other xs at_v
    simp only [ne, dite_false]

end Chronicle

/-! ## Plain values are what their chronicle tells of -/

def Chronicle.Tracks (c : Chronicle) (p : Plain) : Prop := ∀ k, k.plain.of p = (c k).map k.reveal

namespace Chronicle.Tracks

variable {c : Chronicle} {p : Plain} (tracks : c.Tracks p)

include tracks

theorem get? {k : Shelf} {i : Nat} {x : k.Tracked} (at_i : (c k).get? i = some x) :
    (k.plain.of p).get? i = some (k.reveal x) := by
  rw [tracks k, Slots.get?_map, at_i]
  rfl

theorem absent {k : Shelf} {i : Nat} (at_i : (c k).get? i = none) : (k.plain.of p).get? i = none := by
  rw [tracks k, Slots.get?_map, at_i]
  rfl

theorem set (k : Shelf) (t : Slots k.Tracked) {u : Slots k.Value} (same : u = t.map k.reveal) :
    (c.set k t).Tracks (k.plain.set p u) := by
  intro k'
  by_cases e : k' = k
  · subst e
    rw [Shelf.plain_of_set, Chronicle.set, Function.update_self, same]
  · rw [Shelf.plain_of_set_ne p u e, Chronicle.set, Function.update_of_ne e, tracks k']

theorem add (k : Shelf) (x : k.Tracked) {v : k.Value} (same : k.reveal x = v) :
    (c.add k x).Tracks (k.plain.set p ((k.plain.of p).add v)) :=
  tracks.set k _ (by rw [Slots.map_add, ← tracks k, same])

theorem clear (k : Shelf) (i : Nat) : (c.clear k i).Tracks (k.plain.set p ((k.plain.of p).clear i)) :=
  tracks.set k _ (by rw [Slots.map_clear, ← tracks k])

theorem put (k : Shelf) (i : Nat) (x : k.Tracked) {v : k.Value} (same : k.reveal x = v) :
    (c.put k i x).Tracks (k.plain.set p ((k.plain.of p).put i v)) :=
  tracks.set k _ (by rw [Slots.map_put, ← tracks k, same])

theorem did (ds : List Deed) : c.Tracks { p with deeds := ds } := by
  intro k
  rw [Shelf.plain_of_deeds]
  exact tracks k

theorem noted (settings : Settings) (mark : Ledger) : c.Tracks { p with settings, mark } := by
  intro k
  rw [Shelf.plain_of_noted]
  exact tracks k

end Chronicle.Tracks

/-- The action ends with what `c` tells of, or is refused where `c` tells of the values before it. -/
def Leads {α : Type} (act : Plain.Act α) (p before : Plain) (c : Chronicle) : Prop :=
  (∀ y p', act.run p = .ok (y, p') → c.Tracks p') ∧ ∀ why, act.run p = .error why → c.Tracks before

namespace Leads

variable {α β : Type} {c c' : Chronicle} {p before : Plain}

theorem pure {x : α} (tracks : c.Tracks p) : Leads (pure x) p before c := by
  constructor
  · intro y p' run
    cases run
    exact tracks
  · intro why run
    cases run

theorem after {act : Plain.Act α} {k : α → Plain.Act β} {x : α} {p' : Plain} (run : act.run p = .ok (x, p'))
    (rest : Leads (k x) p' before c) : Leads (act >>= k) p before c := by
  unfold Leads
  rw [StateT.run_bind, run]
  exact rest

theorem stopped {act : Plain.Act α} {k : α → Plain.Act β} {why : Refusal} (run : act.run p = .error why)
    (tracks : c.Tracks before) : Leads (act >>= k) p before c := by
  unfold Leads
  rw [StateT.run_bind, run]
  constructor
  · intro y p' run
    cases run
  · intro _ _
    exact tracks

variable (tracks : c.Tracks p)

include tracks

theorem peek (k : Shelf) {i : Nat} {f : k.Value → Plain.Act β}
    (there : ∀ x, (c k).get? i = some x → Leads (f (k.reveal x)) p before c')
    (absent : (c k).get? i = none → c'.Tracks before) : Leads (k.plain.peek i >>= f) p before c' := by
  cases at_i : (c k).get? i with
  | none =>
    have refused : (k.plain.peek i).run p = .error .emptySlot := by
      simp [Plain.Table.peek, tracks.absent at_i]
      rfl
    exact stopped refused (absent at_i)
  | some x => exact after (Plain.run_peek k.plain (tracks.get? at_i)) (there x at_i)

theorem take (k : Shelf) {i : Nat} {f : k.Value → Plain.Act β}
    (there : ∀ x, (c k).get? i = some x →
      Leads (f (k.reveal x)) (k.plain.set p ((k.plain.of p).clear i)) before c')
    (absent : (c k).get? i = none → c'.Tracks before) : Leads (k.plain.take i >>= f) p before c' := by
  unfold Plain.Table.take
  rw [bind_assoc]
  exact peek tracks k there absent

theorem itemsOf {e : Element} {v : Nat} {f : List e.Item → Plain.Act β}
    (there : ∀ xs : List e.Tracked, (c .vectors).get? v = some ⟨e, xs⟩ →
      Leads (f (xs.map e.reveal)) p before c')
    (other : (∀ xs, (c .vectors).get? v ≠ some ⟨e, xs⟩) → c'.Tracks before) :
    Leads (Plain.itemsOf e v >>= f) p before c' := by
  unfold Plain.itemsOf
  rw [bind_assoc]
  refine peek tracks .vectors (fun x at_v => ?_) fun absent => other fun xs => by rw [absent]; nofun
  obtain ⟨e', xs⟩ := x
  show Leads
    ((if same : e' = e then Pure.pure (same ▸ xs.map e'.reveal) else throw Refusal.wrongElement) >>= f) p _ _
  by_cases same : e' = e
  · subst same
    simp only [dite_true]
    exact after rfl (there xs at_v)
  · simp only [same, dite_false]
    refine stopped rfl (other fun ys at_v' => same ?_)
    rw [at_v] at at_v'
    cases at_v'
    rfl

end Leads

/-! ## Operations -/

section
variable {c : Chronicle} {p : Plain} (tracks : c.Tracks p)

include tracks

/-- A value that is only looked at. -/
theorem look_leads (k : Shelf) {i : Nat} {f : k.Value → Answer} :
    Leads (k.plain.peek i >>= fun x => pure (f x)) p p c :=
  .peek tracks k (fun _ _ => .pure tracks) fun _ => tracks

/-- A value changed in its slot. -/
theorem change_leads (k : Shelf) {i : Nat} {f : k.Tracked → k.Tracked} {act : k.Value → Plain.Act Answer}
    (there : ∀ x, Leads (act (k.reveal x)) p p (c.put k i (f x))) :
    Leads (k.plain.peek i >>= act) p p (c.change k i f) := by
  refine .peek tracks k (fun x at_i => ?_) fun absent => ?_
  · rw [Chronicle.change, at_i]
    exact there x
  · rwa [Chronicle.change, absent]

/-- A value handed on. -/
theorem hand_leads (k k' : Shelf) {i : Nat} (f : k.Tracked → k'.Tracked) (g : k.Value → k'.Value)
    (same : ∀ x, k'.reveal (f x) = g (k.reveal x)) :
    Leads (k.plain.take i >>= fun v => k'.plain.bind (g v) >>= fun j => pure (Answer.slot j)) p p
      (c.hand k k' f i) := by
  refine .take tracks k (fun x at_i => ?_) fun absent => ?_
  · rw [Chronicle.hand, at_i]
    exact .after rfl (.pure ((tracks.clear k i).add k' (f x) (same x)))
  · rw [Chronicle.hand, absent]
    exact tracks

/-- A value given back. -/
theorem free_leads (k : Shelf) {i : Nat} {ds : k.Value → List Deed} :
    Leads (k.plain.take i >>= fun v => Plain.did (ds v) >>= fun _ => pure Answer.done) p p (c.clear k i) := by
  refine .take tracks k (fun x _ => ?_) fun absent => ?_
  · exact .after rfl (.pure ((tracks.clear k i).did _))
  · rwa [Chronicle.clear_self absent]

/-- Items moved into a vector. -/
theorem push_leads (e : Element) (v : Nat) (ys : List e.Item) (ds : List Deed) :
    Leads (Plain.itemsOf e v >>= fun xs =>
      Plain.Table.vectors.put v ⟨e, xs ++ ys.map (Wire.ideal.item e)⟩ >>= fun _ =>
        Plain.did ds >>= fun _ => pure Answer.done) p p (c.changeItems e v (· ++ ys.map e.track)) := by
  refine .itemsOf tracks (fun xs at_v => ?_) fun other => ?_
  · rw [Chronicle.changeItems_eq at_v]
    have same : (⟨e, (xs ++ ys.map e.track).map e.reveal⟩ : AnyItems) =
        ⟨e, xs.map e.reveal ++ ys.map (Wire.ideal.item e)⟩ := by
      rw [List.map_append, Element.map_reveal_track, Wire.map_ideal_item]
    exact .after rfl (.after rfl (.pure ((tracks.put .vectors v ⟨e, xs ++ ys.map e.track⟩ same).did _)))
  · rwa [Chronicle.changeItems_other other]

/-- Texts taken out of their slots, which is never refused. -/
theorem gather_leads {α : Type} {before : Plain} {c' : Chronicle} {k : List String × Bool → Plain.Act α}
    (slots : List Nat) (rest : ∀ y p', (Chronicle.gather slots c).Tracks p' → Leads (k y) p' before c') :
    Leads (Plain.gather slots >>= k) p before c' := by
  induction slots generalizing c p k with
  | nil => exact .after rfl (rest _ _ tracks)
  | cons i slots ih =>
    unfold Plain.gather
    rw [bind_assoc]
    refine .after rfl ?_
    cases at_i : (c .texts).get? i with
    | none =>
      rw [Chronicle.gather, at_i] at rest
      rw [show p.texts.get? i = none from tracks.absent at_i]
      exact .after rfl (rest _ _ tracks)
    | some h =>
      rw [Chronicle.gather, at_i] at rest
      rw [show p.texts.get? i = some h.text from tracks.get? at_i]
      simp only [bind_assoc]
      refine .take tracks .texts (fun x _ => ?_) fun absent => ?_
      · exact ih (tracks.clear .texts i) fun y p' gathered => .after rfl (rest _ p' gathered)
      · rw [absent] at at_i
        cases at_i

end

/-- What a walk leaves in its vector. -/
theorem reveal_walk {e : Element} (steps : List CursorStep) : ∀ (xs : List e.Tracked) (cs : Cursors),
    (Plain.walk .ideal (xs.map e.reveal) cs steps).2.1 = (Chronicle.walk xs steps).map e.reveal := by
  induction steps with
  | nil => intro xs cs; rfl
  | cons s steps ih =>
    intro xs cs
    have first : (Plain.walkStep .ideal (xs.map e.reveal) cs s).items = (Chronicle.walkStep xs s).map e.reveal := by
      obtain ⟨i, action⟩ := s
      cases action with
      | push x =>
        obtain ⟨e', x⟩ := x
        unfold Plain.walkStep Chronicle.walkStep
        by_cases same : e' = e
        · subst same
          simp [Wire.ideal_item, Element.reveal_track]
        · simp only [same, dite_false]
      | pop => simp [Plain.walkStep, Chronicle.walkStep, List.map_dropLast]
      | _ => rfl
    rw [Plain.walk]
    simp only [first, ih]
    rfl

theorem perform_leads {c : Chronicle} {p : Plain} (tracks : c.Tracks p) (op : Op) :
    Leads (Plain.perform .ideal op) p p (c.step op) := by
  cases op with
  | newText => exact .after rfl (.after rfl (.pure ((tracks.did _).add .texts (.made "") (History.text_made ""))))
  | textFrom t => exact .after rfl (.after rfl (.pure ((tracks.did _).add .texts (.made t) (History.text_made t))))
  | editText i via edits =>
    exact change_leads tracks .texts fun h => .after rfl (.pure (tracks.put .texts i _ (h.text_edited edits)))
  | editOwned i edits =>
    exact change_leads tracks .owned fun h => .after rfl (.pure (tracks.put .owned i _ (h.text_edited edits)))
  | dropText i => exact free_leads tracks .texts
  | dropOwned i => exact free_leads tracks .owned
  | freeReleased i => exact free_leads tracks .released
  | dropVector v => exact free_leads tracks .vectors
  | countDistinct slots =>
    exact gather_leads tracks slots fun y p' gathered => .after rfl (.pure (gathered.did _))
  | releaseText i => exact hand_leads tracks .texts .released id id fun _ => rfl
  | releaseOwned i => exact hand_leads tracks .owned .released id id fun _ => rfl
  | releaseVector v => exact hand_leads tracks .vectors .releasedVectors id id fun _ => rfl
  | adoptText i => exact hand_leads tracks .released .texts id id fun _ => rfl
  | adoptOwned i => exact hand_leads tracks .released .owned id id fun _ => rfl
  | adoptVector i => exact hand_leads tracks .releasedVectors .vectors id id fun _ => rfl
  | newVector e => exact .after rfl (.after rfl (.pure ((tracks.did _).add .vectors ⟨e, []⟩ rfl)))
  | collectVector e xs =>
    have same : (⟨e, (xs.map e.track).map e.reveal⟩ : AnyItems) = ⟨e, xs.map (Wire.ideal.item e)⟩ := by
      rw [Element.map_reveal_track, Wire.map_ideal_item]
    exact .after rfl (.after rfl (.pure ((tracks.did _).add .vectors ⟨e, xs.map e.track⟩ same)))
  | push v x => exact push_leads tracks x.1 v [x.2] x.1.pushDeeds
  | directPush v x => exact push_leads tracks x.1 v [x.2] x.1.pushDeeds
  | extend v e ys => exact push_leads tracks e v ys (ys.flatMap fun _ => e.pushDeeds)
  | pop v =>
    refine .peek tracks .vectors (fun x at_v => ?_) fun absent => ?_
    · rw [Chronicle.step, at_v]
      obtain ⟨e, xs⟩ := x
      cases e with
      | text =>
        have same : (⟨.text, xs.dropLast.map History.text⟩ : AnyItems) =
            ⟨.text, (xs.map History.text).dropLast⟩ := by
          rw [List.map_dropLast]
        show Leads (Plain.popItem .ideal v .text (xs.map History.text)) p p (c.popItem v ⟨.text, xs⟩)
        rw [Plain.popItem, Chronicle.popItem, List.getLast?_map]
        cases xs.getLast? with
        | none => exact .pure tracks
        | some h =>
          have moved := tracks.put .vectors v ⟨.text, xs.dropLast⟩ same
          exact .after rfl (.after rfl (.after rfl (.pure ((moved.did _).add .texts h rfl))))
      | scalar q =>
        have same : (⟨.scalar q, xs.dropLast.map (Element.scalar q).reveal⟩ : AnyItems) =
            ⟨.scalar q, (xs.map (Element.scalar q).reveal).dropLast⟩ := by
          rw [List.map_dropLast]
        exact .after rfl (.pure (tracks.put .vectors v ⟨.scalar q, xs.dropLast⟩ same))
    · rw [Chronicle.step, absent]
      exact tracks
  | directPop v =>
    refine change_leads tracks .vectors fun x => ?_
    have same : (⟨x.1, x.2.dropLast.map x.1.reveal⟩ : AnyItems) = ⟨x.1, (x.2.map x.1.reveal).dropLast⟩ := by
      rw [List.map_dropLast]
    exact .after rfl (.after rfl (.pure ((tracks.put .vectors v ⟨x.1, x.2.dropLast⟩ same).did _)))
  | pushText v i =>
    refine .itemsOf tracks (fun hs at_v => ?_) fun other => ?_
    · rw [Chronicle.step, at_v]
      show Leads _ p p (c.pushText v hs i)
      refine .take tracks .texts (fun h at_i => ?_) fun absent => ?_
      · have same : (⟨.text, (hs ++ [h]).map History.text⟩ : AnyItems) =
            ⟨.text, hs.map History.text ++ [h.text]⟩ := by
          rw [List.map_append]
          rfl
        rw [Chronicle.pushText, at_i]
        have moved := (tracks.clear .texts i).put .vectors v ⟨.text, hs ++ [h]⟩ same
        exact .after rfl (.after rfl (.pure (moved.did _)))
      · rwa [Chronicle.pushText, absent]
    · rw [Chronicle.step]
      cases at_v : (c .vectors).get? v with
      | none => exact tracks
      | some x =>
        obtain ⟨e, xs⟩ := x
        cases e with
        | text => exact absurd at_v (other xs)
        | scalar q => exact tracks
  | editItem v i edits =>
    refine .itemsOf tracks (fun hs at_v => ?_) fun other => ?_
    · rw [Chronicle.step, Chronicle.changeItems_eq at_v]
      dsimp only
      rw [List.getElem?_map]
      cases at_i : hs[i.toNat]? with
      | none =>
        have out : hs.modify i.toNat (.edited edits) = hs := by
          rw [List.modify_eq_set_getElem?, at_i]
          rfl
        rw [out, Chronicle.put_self at_v]
        exact .pure tracks
      | some h =>
        have same : (⟨.text, (hs.modify i.toNat (.edited edits)).map History.text⟩ : AnyItems) =
            ⟨.text, (hs.map History.text).set i.toNat (edits.foldl Wire.ideal.edit h.text)⟩ := by
          rw [List.modify_eq_set_getElem?, at_i, ← History.text_edited]
          simp
        exact .after rfl (.pure (tracks.put .vectors v ⟨.text, hs.modify i.toNat (.edited edits)⟩ same))
    · rwa [Chronicle.step, Chronicle.changeItems_other other]
  | walk v steps =>
    refine change_leads tracks .vectors fun x => ?_
    have same : (⟨x.1, (Chronicle.walk x.2 steps).map x.1.reveal⟩ : AnyItems) =
        ⟨x.1, (Plain.walk .ideal (x.2.map x.1.reveal)
          (Slots.empty.add (.ofLen (UInt64.ofNat (x.2.map x.1.reveal).length))) steps).2.1⟩ := by
      rw [reveal_walk]
    exact .after rfl (.after rfl (.pure ((tracks.put .vectors v ⟨x.1, Chronicle.walk x.2 steps⟩ same).did _)))
  | configure settings => exact .after rfl (.pure (tracks.noted _ _))
  | resetLedger => exact .after rfl (.pure (tracks.did _))
  | markLedger => exact .after rfl (.pure (tracks.noted _ _))
  | ledgerSinceMark => exact .after rfl (.pure tracks)
  | readText i via => exact look_leads tracks .texts
  | compareTexts i j =>
    exact .peek tracks .texts (fun _ _ => .peek tracks .texts (fun _ _ => .pure tracks) fun _ => tracks)
      fun _ => tracks
  | compareWithText i u => exact look_leads tracks .texts
  | hashText i => exact look_leads tracks .texts
  | readOwned i => exact look_leads tracks .owned
  | get v i => exact look_leads tracks .vectors
  | getMut v i => exact look_leads tracks .vectors
  | itemAt v i =>
    refine .peek tracks .vectors (fun x _ => ?_) fun _ => tracks
    dsimp only
    split <;> exact .pure tracks
  | vectorLen v => exact look_leads tracks .vectors
  | debugVector v => exact look_leads tracks .vectors
  | listVector v => exact look_leads tracks .vectors
  | sliceVector v => exact look_leads tracks .vectors
  | readItem v i => exact .itemsOf tracks (fun _ _ => .pure tracks) fun _ => tracks
  | compareItems v i j => exact .itemsOf tracks (fun _ _ => .pure tracks) fun _ => tracks
  | directGet v i => exact look_leads tracks .vectors
  | directGetMut v i => exact look_leads tracks .vectors
  | directLen v => exact look_leads tracks .vectors

theorem step_tracks {c : Chronicle} {p : Plain} (tracks : c.Tracks p) (op : Op) :
    (c.step op).Tracks (p.step .ideal op).2 := by
  unfold Plain.step
  cases run : (Plain.perform .ideal op).run p with
  | ok r => exact (perform_leads tracks op).1 r.1 r.2 run
  | error why => exact (perform_leads tracks op).2 why run

theorem run_tracks (ops : List Op) : ∀ {c : Chronicle} {p : Plain}, c.Tracks p →
    (c.run ops).Tracks (p.run .ideal ops).2 := by
  induction ops with
  | nil => intro c p tracks; exact tracks
  | cons op ops ih => intro c p tracks; exact ih (step_tracks tracks op)

theorem start_tracks (settings : Settings) : Chronicle.start.Tracks { Plain.start with settings } := by
  intro k
  cases k <;> exact (Slots.map_empty _).symm

end Custody
