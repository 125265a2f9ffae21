/-
  Custody.Proofs.Figures — the ledger's figures and the log's, compared.

  A `Figure` sets a count of events against a count of records. Most calls move both by the same amount, and
  their talk is `Even`. The others are what happens past an owner, or shows in an answer only; `Asides` count
  these, and `Figure.due` says by how much the figures then differ.
-/
import Custody.Proofs.Talk
import Custody.Proofs.Told

namespace Custody

/-! ## Figures -/

/-- What is compared: events of the ledger with records of the log. -/
inductive Figure where
  /-- Texts given back, with the calls that did it … -/
  | freesCalled
  /-- … and with what their owners said. -/
  | freesSaid
  /-- Texts moved into vectors, with the calls … -/
  | movesCalled
  /-- … and with what owners said that let go of their handles. -/
  | movesSaid
  /-- Texts handed out, with the calls that make one. -/
  | allocsCalled
  /-- Nothing, with the calls that pop a text. -/
  | popsCalled
  /-- Vectors made and vectors given back, with the calls and with what is said of them. -/
  | vectorsCalled
  | vectorsSaid
  | endsCalled
  | endsSaid
  /-- Texts in vectors given back, with how many were said to be in there. -/
  | dropped

namespace Figure

def ofEvent : Figure → Event → Nat
  | freesCalled, .textFree | freesSaid, .textFree => 1
  | movesCalled, .textTransfer | movesSaid, .textTransfer => 1
  | allocsCalled, .textAlloc => 1
  | vectorsCalled, .vectorAlloc | vectorsSaid, .vectorAlloc => 1
  | endsCalled, .vectorFree _ | endsSaid, .vectorFree _ => 1
  | dropped, .vectorFree texts => texts.toNat
  | _, _ => 0

def ofRecord : Figure → LogRecord → Nat
  | freesCalled, .call (.text .free) => 1
  | freesSaid, .freeing type _ => if type = Element.textName then 1 else 0
  | movesCalled, .call (.vector .text .push) => 1
  | movesSaid, .released type _ => if type = Element.textName then 1 else 0
  | allocsCalled, .call (.text .new) | allocsCalled, .call (.text .ofView) => 1
  | popsCalled, .call (.vector .text .pop) => 1
  | vectorsCalled, .call (.vector _ .new) => 1
  | vectorsSaid, .allocated .. => 1
  | endsCalled, .call (.vector _ .drop) => 1
  | endsSaid, .vectorGiven _ => 1
  | dropped, .dropped .text _ count => count.toNat
  | _, _ => 0

variable (F : Figure)

def events (es : List Event) : Nat := (es.map F.ofEvent).sum

def records (rs : List LogRecord) : Nat := (rs.map F.ofRecord).sum

theorem events_append (es es' : List Event) : F.events (es ++ es') = F.events es + F.events es' := by simp [events]

theorem records_append (rs rs' : List LogRecord) : F.records (rs ++ rs') = F.records rs + F.records rs' := by
  simp [records]

/-- By how much the events are ahead of the records. -/
def gap (t : Talk) : Int := F.events t.events - F.records t.records

@[simp] theorem gap_silence : F.gap .silence = 0 := rfl

@[simp] theorem gap_append (t t' : Talk) : F.gap (t ++ t') = F.gap t + F.gap t' := by
  simp only [gap, Talk.events_append, Talk.records_append, events_append, records_append]
  omega

end Figure

/-! ## What figures differ by -/

structure Asides where
  /-- Texts given back past any owner. -/
  freed : Nat
  /-- Texts moved into a vector past any owner. -/
  moved : Nat
  /-- Handles that owners let go of, for their consumer to keep. -/
  letGo : Nat
  /-- Pops of vectors of texts, and those that found one. -/
  pops : Nat
  found : Nat

namespace Asides

def none : Asides := ⟨0, 0, 0, 0, 0⟩

def add (x y : Asides) : Asides :=
  ⟨x.freed + y.freed, x.moved + y.moved, x.letGo + y.letGo, x.pops + y.pops, x.found + y.found⟩

instance : Add Asides := ⟨add⟩

def total (xs : List Asides) : Asides := xs.foldr add none

end Asides

namespace Figure

/-- By how much the events are ahead of the records, on account of the asides. -/
def due (x : Asides) : Figure → Int
  | freesSaid => x.freed
  | movesSaid => x.moved - x.letGo
  | allocsCalled => x.found
  | popsCalled => -x.pops
  | _ => 0

@[simp] theorem due_none (F : Figure) : F.due .none = 0 := by cases F <;> rfl

@[simp] theorem due_add (F : Figure) (x y : Asides) : F.due (x + y) = F.due x + F.due y := by
  have sum : x + y =
    ⟨x.freed + y.freed, x.moved + y.moved, x.letGo + y.letGo, x.pops + y.pops, x.found + y.found⟩ := rfl
  rw [sum]
  cases F <;> simp [due] <;> omega

end Figure

namespace Talk

/-- The figures of the talk differ by what its asides make them differ. -/
def Owes (x : Asides) (t : Talk) : Prop := ∀ F : Figure, F.gap t = F.due x

/-- All figures agree. -/
abbrev Even (t : Talk) : Prop := t.Owes .none

theorem Owes.append {x y : Asides} {t t' : Talk} (owes : t.Owes x) (owes' : t'.Owes y) : (t ++ t').Owes (x + y) := by
  intro F
  rw [Figure.gap_append, owes F, owes' F, Figure.due_add]

theorem Owes.before {x : Asides} {t t' : Talk} (even : t.Even) (owes : t'.Owes x) : (t ++ t').Owes x := by
  intro F
  rw [Figure.gap_append, even F, owes F, Figure.due_none, Int.zero_add]

theorem Owes.after {x : Asides} {t t' : Talk} (owes : t.Owes x) (even : t'.Even) : (t ++ t').Owes x := by
  intro F
  rw [Figure.gap_append, even F, owes F, Figure.due_none, Int.add_zero]

theorem Even.silence : Even .silence := fun F => by simp

instance : Talk.Kind Even where
  silence := Even.silence
  append := fun even even' => .before even even'

end Talk

/-- A call of which ledger and log tell the same. -/
abbrev Agrees {S E α : Type} [Stage S] (c : StateT S (Except E) α) : Prop := Keeps Talk.Even c

theorem Agrees.of_talk {S E α : Type} [Stage S] {c : StateT S (Except E) α} {t : Talk}
    (tells : Tells c fun _ t' => t' = t) (even : t.Even) : Agrees c := tells_mono tells fun _ _ same => same ▸ even

/-! ## Texts -/

namespace TextCalls

theorem agrees_new : Agrees new := .of_talk tells_new fun F => by cases F <;> rfl

theorem agrees_ofView (v : TextView) : Agrees (ofView v) := .of_talk (tells_ofView v) fun F => by cases F <;> rfl

theorem agrees_len (p : Place) : Agrees (len p) := .of_talk (tells_len p) fun F => by cases F <;> rfl

theorem agrees_view (p : Place) : Agrees (view p) := .of_talk (tells_view p) fun F => by cases F <;> rfl

theorem agrees_trim (p : Place) : Agrees (trim p) := .of_talk (tells_trim p) fun F => by cases F <;> rfl

theorem agrees_append (p : Place) (v : TextView) : Agrees (append p v) :=
  .of_talk (tells_append p v) fun F => by cases F <;> rfl

theorem agrees_clear (p : Place) : Agrees (clear p) := .of_talk (tells_clear p) fun F => by cases F <;> rfl

theorem agrees_equals (p q : Place) : Agrees (equals p q) := .of_talk (tells_equals p q) fun F => by cases F <;> rfl

theorem agrees_hash (p : Place) : Agrees (hash p) := .of_talk (tells_hash p) fun F => by cases F <;> rfl

/-- The log has a call for a text given back past its owner, but no word of an owner. -/
theorem owes_free (h : Handle) : Tells (free h) fun _ t => t.Owes ⟨1, 0, 0, 0, 0⟩ :=
  tells_mono (tells_free h) fun _ _ same => by
    subst same
    intro F
    cases F <;> rfl

end TextCalls

namespace TextOwner

theorem agrees_new : Agrees new := .map _ TextCalls.agrees_new

theorem agrees_ofText (t : String) : Agrees (ofText t) := .map _ (TextCalls.agrees_ofView _)

theorem agrees_drop (o : Owner) : Agrees (drop o) := by
  unfold drop Owner.drop
  split
  · refine tells_bind (Store.tells_say (fun _ => rfl) (tells_mono (TextCalls.tells_free o.handle) ?_))
    rintro _ _ rfl F
    cases F <;> rfl
  · exact .pure ()

/-- A handle that an owner lets go of is not given back. -/
theorem owes_release (o : Owner) : Tells (release o) fun _ t => t.Owes ⟨0, 0, 1, 0, 0⟩ := by
  refine tells_bind (Store.tells_say (fun _ => rfl) (tells_pure ?_))
  intro F
  cases F <;> rfl

end TextOwner

namespace Place

theorem agrees_isEmpty (p : Place) : Agrees p.isEmpty := .bind (TextCalls.agrees_len p) fun _ => .pure _

theorem agrees_text (p : Place) : Agrees p.text := .bind (TextCalls.agrees_view p) fun _ => .pure _

theorem agrees_trimmed (p : Place) : Agrees p.trimmed := .bind (TextCalls.agrees_trim p) fun _ => .pure _

theorem agrees_debug (p : Place) : Agrees p.debug := .bind (agrees_text p) fun _ => .pure _

theorem agrees_hash (p : Place) : Agrees p.hash := .bind (TextCalls.agrees_hash p) fun _ => .pure _

theorem agrees_equalsText (p : Place) (t : String) : Agrees (p.equalsText t) := .bind (agrees_text p) fun _ => .pure _

theorem agrees_read (p : Place) : Agrees p.read := by
  refine .bind (TextCalls.agrees_len p) fun _ => ?_
  refine .bind (agrees_isEmpty p) fun _ => ?_
  refine .bind (agrees_text p) fun _ => ?_
  refine .bind (agrees_trimmed p) fun _ => ?_
  refine .bind (TextCalls.agrees_view p) fun _ => ?_
  refine .bind (agrees_text p) fun _ => ?_
  refine .bind (agrees_debug p) fun _ => ?_
  exact .bind (agrees_hash p) fun _ => .pure _

theorem agrees_edit (p : Place) (edit : Edit) : Agrees (p.edit edit) := by
  cases edit with
  | push t => exact TextCalls.agrees_append p _
  | clear => exact TextCalls.agrees_clear p

theorem agrees_editAll (p : Place) (edits : List Edit) : Agrees (p.editAll edits) := by
  induction edits with
  | nil => exact .pure ()
  | cons edit edits ih => exact .bind (agrees_edit p edit) fun _ => ih

end Place

namespace TextSet

theorem agrees_holds (s : TextSet) (h : UInt64) (o : Owner) : Agrees (s.holds h o) := by
  induction s with
  | nil => exact .pure false
  | cons member s ih =>
    unfold holds
    split
    · refine .bind (TextCalls.agrees_equals _ _) fun same => ?_
      cases same with
      | true => exact .pure true
      | false => exact ih
    · exact ih

theorem agrees_insert (s : TextSet) (o : Owner) : Agrees (s.insert o) := by
  refine .bind (Place.agrees_hash _) fun h => ?_
  refine .bind (agrees_holds s h o) fun there => ?_
  cases there with
  | true => exact .bind (TextOwner.agrees_drop o) fun _ => .pure s
  | false => exact .pure _

theorem agrees_drop (s : TextSet) : Agrees s.drop := by
  induction s with
  | nil => exact .pure ()
  | cons member s ih => exact .bind (TextOwner.agrees_drop member.2) fun _ => ih

end TextSet

/-! ## Vectors -/

namespace Element

theorem agrees_make (e : Element) (x : e.Item) : Agrees (e.make x) := by
  cases e with
  | text => exact TextOwner.agrees_ofText x
  | scalar p => exact .pure x

theorem agrees_look (e : Element) (x : e.Lent) : Agrees (e.look x) := by
  cases e with
  | text => exact Place.agrees_text x
  | scalar p => exact .pure x

/-- What is aside of a push or a pop that passes owners by. -/
def pushAsides (e : Element) : Asides := ⟨0, e.texts 1, 0, 0, 0⟩

def popAsides (e : Element) (x : e.Found) : Asides := ⟨e.textsFound x, 0, 0, e.texts 1, e.textsFound x⟩

end Element

namespace VectorCalls

theorem agrees_len (e : Element) (v : Handle) : Agrees (len e v) :=
  .of_talk (tells_len e v) fun F => by cases e <;> cases F <;> rfl

theorem agrees_start (e : Element) (v : Handle) : Agrees (start e v) :=
  .of_talk (tells_start e v) fun F => by cases e <;> cases F <;> rfl

theorem agrees_getText (v : Handle) (i : UInt64) : Agrees (getText v i) :=
  .of_talk (tells_getText v i) fun F => by cases F <;> rfl

theorem agrees_getMutText (v : Handle) (i : UInt64) : Agrees (getMutText v i) :=
  .of_talk (tells_getMutText v i) fun F => by cases F <;> rfl

section
variable (p : Primitive) (v : Handle)

theorem agrees_pushScalar (x : p.Value) : Agrees (pushScalar p v x) :=
  .of_talk (tells_pushScalar p v x) fun F => by cases F <;> rfl

theorem agrees_popScalar : Agrees (popScalar p v) := .of_talk (tells_popScalar p v) fun F => by cases F <;> rfl

theorem agrees_getScalar (i : UInt64) : Agrees (getScalar p v i) :=
  .of_talk (tells_getScalar p v i) fun F => by cases F <;> rfl

theorem agrees_getMutScalar (i : UInt64) : Agrees (getMutScalar p v i) :=
  .of_talk (tells_getMutScalar p v i) fun F => by cases F <;> rfl

end

theorem owes_pushText (v item : Handle) : Tells (pushText v item) fun _ t => t.Owes ⟨0, 1, 0, 0, 0⟩ := by
  refine tells_mono (tells_pushText v item) ?_
  rintro _ _ rfl F
  cases F <;> rfl

theorem owes_popText (v : Handle) :
    Tells (popText v) fun h t => t.Owes ⟨0, 0, 0, 1, if h.isSome then 1 else 0⟩ := by
  refine tells_mono (tells_popText v) ?_
  rintro h _ rfl F
  cases h <;> cases F <;> rfl

end VectorCalls

namespace VectorOwner

variable {e : Element}

theorem agrees_new (e : Element) : Agrees (new e) := by
  refine tells_bind (tells_mono (VectorCalls.tells_new e) ?_)
  rintro v _ rfl
  refine tells_bind (Store.tells_say (fun _ => rfl) (tells_pure ?_))
  intro F
  cases e <;> cases F <;> rfl

theorem agrees_drop (v : VectorOwner e) : Agrees v.drop := by
  unfold drop
  split
  · refine tells_bind (Store.tells_say (fun _ => rfl) (tells_mono (VectorCalls.tells_drop e v.handle) ?_))
    rintro _ _ ⟨n, rfl⟩ F
    cases e <;> cases F <;>
      simp [Figure.gap, Figure.events, Figure.records, Figure.ofEvent, Figure.ofRecord, Figure.due, VectorCalls.textsIn,
        Talk.say, Asides.none]
  · exact .pure ()

theorem agrees_release (v : VectorOwner e) : Agrees v.release := .bind (agrees_drop _) fun _ => .pure _

theorem agrees_push (v : VectorOwner e) (x : e.Moved) : Agrees (v.push x) := by
  cases e with
  | text =>
    refine tells_bind (tells_mono (TextOwner.owes_release x) fun h t owes => ?_)
    refine tells_mono (VectorCalls.owes_pushText v.handle h) fun _ t' owes' => ?_
    intro F
    rw [owes.append owes' F]
    cases F <;> rfl
  | scalar p => exact VectorCalls.agrees_pushScalar p v.handle x

theorem agrees_get (v : VectorOwner e) (i : UInt64) : Agrees (v.get i) := by
  cases e with
  | text => exact VectorCalls.agrees_getText v.handle i
  | scalar p => exact .bind (VectorCalls.agrees_getScalar p v.handle i) fun _ => .pure _

theorem agrees_getMut (v : VectorOwner e) (i : UInt64) : Agrees (v.getMut i) := by
  cases e with
  | text => exact VectorCalls.agrees_getMutText v.handle i
  | scalar p => exact .bind (VectorCalls.agrees_getMutScalar p v.handle i) fun _ => .pure _

theorem agrees_len (v : VectorOwner e) : Agrees v.len := VectorCalls.agrees_len e v.handle

theorem agrees_isEmpty (v : VectorOwner e) : Agrees v.isEmpty := .bind (agrees_len v) fun _ => .pure _

theorem agrees_start (v : VectorOwner e) : Agrees v.start := VectorCalls.agrees_start e v.handle

theorem agrees_itemAt (v : VectorOwner e) (i : UInt64) : Agrees (v.itemAt i) := by
  refine .bind (agrees_get v i) fun x => ?_
  cases x with
  | some x => exact .pure _
  | none => exact .bind (agrees_len v) fun _ => .pure _

theorem agrees_extend (v : VectorOwner e) (sources : List (Call e.Moved)) (agree : ∀ c ∈ sources, Agrees c) :
    Agrees (v.extend sources) := by
  induction sources with
  | nil => exact .pure ()
  | cons source sources ih =>
    refine .bind (agree source List.mem_cons_self) fun x => ?_
    refine .bind (agrees_push v x) fun _ => ?_
    exact ih fun c mem => agree c (List.mem_cons_of_mem source mem)

theorem agrees_makeAll (e : Element) (xs : List e.Item) : ∀ c ∈ xs.map e.make, Agrees c := by
  intro c mem
  obtain ⟨x, -, rfl⟩ := List.mem_map.mp mem
  exact Element.agrees_make e x

theorem agrees_collect (e : Element) (xs : List e.Item) : Agrees (collect e (xs.map e.make)) :=
  .bind (agrees_new e) fun v => .bind (agrees_extend v _ (agrees_makeAll e xs)) fun _ => .pure v

section
variable {p : Primitive} (v : VectorOwner (.scalar p))

theorem agrees_storageView : Agrees v.storageView :=
  .bind (agrees_start v) fun _ => .bind (agrees_len v) fun _ => .pure _

theorem agrees_storage : Agrees v.storage := by
  refine .bind (agrees_storageView v) fun view => ?_
  unfold readView
  split
  · exact .pure _
  · cases view.start with
    | none => exact .pure _
    | some place => exact .bind (.of_silent (Store.silent_storageFrom p place)) fun _ => .pure _

end

end VectorOwner

end Custody
