/-
  Custody.Proofs.Talk — what calls tell the ledger and the log, under any settings.

  `Tells c Q` says that `c` depends neither on the settings nor on the log. From a given state it either stops,
  under all settings, or ends with the same result in the same state, having told the ledger and the log a
  `Talk`; and result and talk satisfy `Q`. What the settings do is decide how much of the talk is heard
  (`LogRecord.heard`). Nothing is said here about when a call stops.
-/
import Mathlib.Data.List.Basic
import Custody.Session

namespace Custody

/-! ## Talk -/

/-- What the log gets to hear of a record under the given settings. -/
def LogRecord.heard (settings : Settings) : LogRecord → Option LogRecord
  | .call e => if settings.traceCalls then some (.call e) else none
  | .allocated e v _ => some (.allocated e v settings.capacityHint)
  | r => some r

structure Talk where
  events : List Event
  records : List LogRecord

namespace Talk

def silence : Talk := ⟨[], []⟩

def say (r : LogRecord) : Talk := ⟨[], [r]⟩

def count (e : Event) : Talk := ⟨[e], []⟩

def append (t t' : Talk) : Talk := ⟨t.events ++ t'.events, t.records ++ t'.records⟩

instance : Append Talk := ⟨append⟩

@[simp] theorem events_append (t t' : Talk) : (t ++ t').events = t.events ++ t'.events := rfl
@[simp] theorem records_append (t t' : Talk) : (t ++ t').records = t.records ++ t'.records := rfl

@[simp] theorem silence_append (t : Talk) : silence ++ t = t := rfl

@[simp] theorem append_silence (t : Talk) : t ++ silence = t := by
  show (⟨t.events ++ [], t.records ++ []⟩ : Talk) = t
  rw [List.append_nil, List.append_nil]

/-- The part that the log gets to hear. -/
def heard (settings : Settings) (t : Talk) : List LogRecord := t.records.filterMap (LogRecord.heard settings)

@[simp] theorem heard_append (settings : Settings) (t t' : Talk) :
    (t ++ t').heard settings = t.heard settings ++ t'.heard settings := List.filterMap_append

end Talk

/-! ## States with settings and a log -/

class Stage (S : Type) where
  /-- The same state with other settings and another log. -/
  under : S → Settings → Array LogRecord → S
  ledger : S → Ledger

instance : Stage Store where
  under st settings log := { st with settings, log }
  ledger := Store.ledger

instance : Stage Session where
  under s settings log := { s with store := { s.store with settings, log } }
  ledger s := s.store.ledger

open Stage

def Tells {S E α : Type} [Stage S] (c : StateT S (Except E) α) (Q : α → Talk → Prop) : Prop :=
  ∀ s : S, (∃ stop, ∀ settings log, c.run (under s settings log) = .error stop) ∨
    ∃ a s' t, (∀ settings log,
        c.run (under s settings log) = .ok (a, under s' settings (log ++ (t.heard settings).toArray))) ∧
      ledger s' = t.events.foldl .record (ledger s) ∧ Q a t

section
variable {S E α β : Type} [Stage S]

theorem tells_pure {a : α} {Q : α → Talk → Prop} (post : Q a .silence) :
    Tells (pure a : StateT S (Except E) α) Q := by
  intro s
  refine .inr ⟨a, s, .silence, fun settings log => ?_, rfl, post⟩
  rw [show log ++ (Talk.silence.heard settings).toArray = log from Array.append_empty]
  rfl

theorem tells_bind {c : StateT S (Except E) α} {k : α → StateT S (Except E) β} {Q : β → Talk → Prop}
    (first : Tells c fun a t => Tells (k a) fun b t' => Q b (t ++ t')) : Tells (c >>= k) Q := by
  intro s
  rcases first s with ⟨stop, run⟩ | ⟨a, s', t, run, told, next⟩
  · exact .inl ⟨stop, fun settings log => by rw [StateT.run_bind, run]; rfl⟩
  rcases next s' with ⟨stop, run'⟩ | ⟨b, s'', t', run', told', post⟩
  · refine .inl ⟨stop, fun settings log => ?_⟩
    rw [StateT.run_bind, run]
    exact run' ..
  · refine .inr ⟨b, s'', t ++ t', fun settings log => ?_, ?_, post⟩
    · rw [StateT.run_bind, run, Talk.heard_append, ← List.append_toArray, ← Array.append_assoc]
      exact run' ..
    · rw [told', told, Talk.events_append, List.foldl_append]

theorem tells_mono {c : StateT S (Except E) α} {P Q : α → Talk → Prop} (h : Tells c P) (le : ∀ a t, P a t → Q a t) :
    Tells c Q := by
  intro s
  rcases h s with stops | ⟨a, s', t, run, told, post⟩
  · exact .inl stops
  · exact .inr ⟨a, s', t, run, told, le a t post⟩

theorem tells_map {c : StateT S (Except E) α} {f : α → β} {Q : β → Talk → Prop} (h : Tells c fun a t => Q (f a) t) :
    Tells (f <$> c) Q := by
  rw [map_eq_pure_bind]
  refine tells_bind (tells_mono h fun a t post => tells_pure ?_)
  rwa [Talk.append_silence]

theorem tells_discard {c : StateT S (Except E) α} {Q : Unit → Talk → Prop} (h : Tells c fun _ t => Q () t) :
    Tells (discard c) Q := tells_map h

theorem tells_throw {stop : E} {Q : α → Talk → Prop} : Tells (throw stop : StateT S (Except E) α) Q :=
  fun _ => .inl ⟨stop, fun _ _ => rfl⟩

/-- Nothing is told, and the state is only looked at where settings and log play no part. -/
theorem tells_look {c : StateT S (Except E) α} {f : S → Except E α} (looks : ∀ s, c.run s = (f s).map (·, s))
    (blind : ∀ s settings log, f (under s settings log) = f s) : Tells c fun _ t => t = .silence := by
  intro s
  cases found : f s with
  | error stop => exact .inl ⟨stop, fun settings log => by rw [looks, blind, found]; rfl⟩
  | ok a =>
    refine .inr ⟨a, s, .silence, fun settings log => ?_, rfl, rfl⟩
    rw [looks, blind, found, show log ++ (Talk.silence.heard settings).toArray = log from Array.append_empty]
    rfl

/-- Nothing is told of a change that settings, log and ledger take no part in. -/
theorem tells_modify {f : S → S} (blind : ∀ s settings log, f (under s settings log) = under (f s) settings log)
    (kept : ∀ s, ledger (f s) = ledger s) :
    Tells (modify f : StateT S (Except E) Unit) fun _ t => t = .silence := by
  intro s
  refine .inr ⟨(), f s, .silence, fun settings log => ?_, kept s, rfl⟩
  rw [show log ++ (Talk.silence.heard settings).toArray = log from Array.append_empty, ← blind]
  rfl

end

/-! ### Kinds of talk -/

/-- A kind of talk that goes on as it began. -/
class Talk.Kind (P : Talk → Prop) : Prop where
  silence : P .silence
  append : ∀ {t t'}, P t → P t' → P (t ++ t')

/-- All that is told is of that kind. -/
def Keeps {S E α : Type} [Stage S] (P : Talk → Prop) (c : StateT S (Except E) α) : Prop := Tells c fun _ t => P t

/-- Nothing is told. -/
abbrev Silent {S E α : Type} [Stage S] (c : StateT S (Except E) α) : Prop := Keeps (· = .silence) c

instance : Talk.Kind (· = .silence) where
  silence := rfl
  append := by
    rintro _ _ rfl rfl
    rfl

namespace Keeps

variable {S E α β : Type} [Stage S] {P : Talk → Prop} [Talk.Kind P]

theorem pure (a : α) : Keeps P (Pure.pure a : StateT S (Except E) α) := tells_pure Talk.Kind.silence

omit [Talk.Kind P] in
theorem throw (stop : E) : Keeps P (throw stop : StateT S (Except E) α) := tells_throw

theorem bind {c : StateT S (Except E) α} {k : α → StateT S (Except E) β} (first : Keeps P c)
    (next : ∀ a, Keeps P (k a)) : Keeps P (c >>= k) :=
  tells_bind (tells_mono first fun a _ told => tells_mono (next a) fun _ _ told' => Talk.Kind.append told told')

omit [Talk.Kind P] in
theorem map {c : StateT S (Except E) α} (f : α → β) (keeps : Keeps P c) : Keeps P (f <$> c) := tells_map keeps

theorem of_silent {c : StateT S (Except E) α} (silent : Silent c) : Keeps P c :=
  tells_mono silent fun _ _ none => none ▸ Talk.Kind.silence

end Keeps

/-- What comes after silence is all that is told. -/
theorem Silent.before {S E α β : Type} [Stage S] {c : StateT S (Except E) α} {k : α → StateT S (Except E) β}
    {Q : β → Talk → Prop} (silent : Silent c) (next : ∀ a, Tells (k a) Q) : Tells (c >>= k) Q := by
  refine tells_bind (tells_mono silent ?_)
  rintro a _ rfl
  exact next a

/-! ## The store -/

namespace Store

theorem tells_count {e : Event} {Q : Unit → Talk → Prop} (post : Q () (.count e)) : Tells (count e) Q := by
  intro st
  refine .inr ⟨(), { st with ledger := st.ledger.record e }, .count e, fun settings log => ?_, rfl, post⟩
  rw [show log ++ ((Talk.count e).heard settings).toArray = log from Array.append_empty]
  rfl

/-- All records but two kinds are heard as they are. -/
theorem tells_say {r : LogRecord} (heard : ∀ settings, r.heard settings = some r) {Q : Unit → Talk → Prop}
    (post : Q () (.say r)) : Tells (say r) Q := by
  intro st
  refine .inr ⟨(), st, .say r, fun settings log => ?_, rfl, post⟩
  rw [Talk.heard, Talk.say, List.filterMap_cons_some (heard settings), List.filterMap_nil,
    ← Array.push_eq_append]
  rfl

theorem tells_enter {e : Entry} {Q : Unit → Talk → Prop} (post : Q () (.say (.call e))) : Tells (enter e) Q := by
  intro st
  refine .inr ⟨(), st, .say (.call e), fun settings log => ?_, rfl, post⟩
  have run : (enter e).run (under st settings log) = .ok ((),
      if settings.traceCalls then { st with settings, log := log.push (.call e) } else under st settings log) := by
    cases traced : settings.traceCalls <;> simp [enter, say, under, traced] <;> rfl
  rw [run, Talk.heard, Talk.say]
  cases traced : settings.traceCalls <;> simp [LogRecord.heard, traced, under]

theorem silent_allocate (o : Object) : Silent (allocate o) := by
  intro st
  refine .inr ⟨st.heap.next, { st with heap := st.heap.allocate o }, .silence, fun settings log => ?_, rfl, rfl⟩
  rw [show log ++ (Talk.silence.heard settings).toArray = log from Array.append_empty]
  rfl

theorem silent_object (h : Handle) : Silent (object h) := by
  refine tells_look (f := fun st : Store => ((st.heap.find? h).map Except.ok).getD (.error (.dead h))) (fun st => ?_)
    fun _ _ _ => rfl
  cases found : st.heap.find? h <;> simp [object, found] <;> rfl

theorem silent_replace (h : Handle) (o : Object) : Silent (replace h o) :=
  tells_modify (f := fun st : Store => { st with heap := st.heap.replace h o }) (fun _ _ _ => rfl) fun _ => rfl

theorem silent_release (h : Handle) : Silent (release h) :=
  tells_modify (f := fun st : Store => { st with heap := st.heap.release h }) (fun _ _ _ => rfl) fun _ => rfl

theorem silent_boxedText (h : Handle) : Silent (boxedText h) := by
  refine .bind (silent_object h) fun o => ?_
  cases o with
  | text t => exact .pure t
  | vector e xs => exact .throw _

theorem silent_items (e : Element) (h : Handle) : Silent (items e h) := by
  refine .bind (silent_object h) fun o => ?_
  cases o with
  | text t => exact .throw _
  | vector e' xs =>
    by_cases same : e' = e
    · simp only [same, dite_true]
      exact .pure _
    · simp only [same, dite_false]
      exact .throw _

theorem silent_textAt (p : Place) : Silent (textAt p) := by
  cases p with
  | whole h => exact silent_boxedText h
  | item v i =>
    refine .bind (silent_items .text v) fun ts => ?_
    cases ts[i.toNat]? with
    | none => exact .throw _
    | some t => exact .pure t

theorem silent_editText (p : Place) (f : String → String) : Silent (editText p f) := by
  refine .bind (silent_textAt p) fun t => ?_
  cases p with
  | whole h => exact silent_replace h _
  | item v i => exact .bind (silent_items .text v) fun ts => silent_replace v _

theorem silent_storageFrom (p : Primitive) (place : Place) : Silent (storageFrom p place) := by
  cases place with
  | whole h => exact .throw _
  | item v i => exact .bind (silent_items (.scalar p) v) fun xs => .pure _

/-- A function that says it was called, and otherwise works in silence. -/
theorem tells_call {α : Type} {e : Entry} {c : Call α} (silent : Silent c) :
    Tells (enter e >>= fun _ => c) fun _ t => t = .say (.call e) := by
  refine tells_bind (tells_enter (tells_mono silent ?_))
  rintro a _ rfl
  rfl

end Store

/-! ## Exported functions -/

namespace TextCalls

theorem tells_handOut (t : String) : Tells (handOut t) fun _ t => t = .count .textAlloc :=
  tells_bind (Store.tells_count (tells_mono (Store.silent_allocate _) (by rintro h _ rfl; rfl)))

theorem silent_takeBack (h : Handle) : Silent (takeBack h) :=
  .bind (Store.silent_boxedText h) fun t => .bind (Store.silent_release h) fun _ => .pure t

theorem tells_new : Tells new fun _ t => t = ⟨[.textAlloc], [.call (.text .new)]⟩ := by
  refine tells_bind (Store.tells_enter (tells_mono (tells_handOut "") ?_))
  rintro h _ rfl
  rfl

theorem tells_ofView (v : TextView) : Tells (ofView v) fun _ t => t = ⟨[.textAlloc], [.call (.text .ofView)]⟩ := by
  refine tells_bind (Store.tells_enter (tells_mono (tells_handOut _) ?_))
  rintro h _ rfl
  rfl

theorem tells_free (h : Handle) : Tells (free h) fun _ t => t = ⟨[.textFree], [.call (.text .free)]⟩ := by
  refine tells_bind (Store.tells_enter (tells_bind (Store.tells_count ?_)))
  refine tells_discard (tells_mono (silent_takeBack h) ?_)
  rintro t _ rfl
  rfl

theorem tells_len (p : Place) : Tells (len p) fun _ t => t = .say (.call (.text .len)) :=
  Store.tells_call (.bind (Store.silent_textAt p) fun _ => .pure _)

theorem tells_view (p : Place) : Tells (view p) fun _ t => t = .say (.call (.text .view)) :=
  Store.tells_call (.bind (Store.silent_textAt p) fun _ => .pure _)

theorem tells_trim (p : Place) : Tells (trim p) fun _ t => t = .say (.call (.text .trim)) :=
  Store.tells_call (.bind (Store.silent_textAt p) fun _ => .pure _)

theorem tells_append (p : Place) (v : TextView) : Tells (append p v) fun _ t => t = .say (.call (.text .append)) :=
  Store.tells_call (Store.silent_editText p _)

theorem tells_clear (p : Place) : Tells (clear p) fun _ t => t = .say (.call (.text .clear)) :=
  Store.tells_call (Store.silent_editText p _)

theorem tells_equals (p q : Place) : Tells (equals p q) fun _ t => t = .say (.call (.text .equals)) :=
  Store.tells_call (.bind (Store.silent_textAt p) fun _ => .bind (Store.silent_textAt q) fun _ => .pure _)

theorem tells_hash (p : Place) : Tells (hash p) fun _ t => t = .say (.call (.text .hash)) :=
  Store.tells_call (.bind (Store.silent_textAt p) fun _ => .pure _)

end TextCalls

namespace VectorCalls

/-- The record of the allocation says how much room was made, which is for the settings to decide. -/
theorem tells_new (e : Element) :
    Tells (new e) fun v t => t = ⟨[.vectorAlloc], [.call (.vector e .new), .allocated e v 0]⟩ := by
  refine tells_bind (Store.tells_enter fun st => ?_)
  refine .inr ⟨st.heap.next,
    { st with heap := st.heap.allocate (.vector e #[]), ledger := st.ledger.record .vectorAlloc },
    ⟨[.vectorAlloc], [.allocated e st.heap.next 0]⟩, fun settings log => ?_, rfl, rfl⟩
  have heard : (⟨[.vectorAlloc], [.allocated e st.heap.next 0]⟩ : Talk).heard settings =
      [.allocated e st.heap.next settings.capacityHint] := rfl
  rw [heard, ← Array.push_eq_append]
  rfl

/-- As many elements are said to be dropped as are counted, if they are texts. -/
theorem tells_drop (e : Element) (v : Handle) : Tells (drop e v) fun _ t => ∃ n,
    t = ⟨[.vectorFree (textsIn e n)], [.call (.vector e .drop), .dropped e v (UInt64.ofNat n)]⟩ := by
  refine tells_bind (Store.tells_enter ?_)
  refine (Store.silent_items e v).before fun xs => ?_
  refine tells_bind (Store.tells_say (fun _ => rfl) ?_)
  refine (Store.silent_release v).before fun _ => ?_
  exact Store.tells_count ⟨xs.size, rfl⟩

theorem tells_len (e : Element) (v : Handle) : Tells (len e v) fun _ t => t = .say (.call (.vector e .len)) :=
  Store.tells_call (.bind (Store.silent_items e v) fun _ => .pure _)

theorem tells_start (e : Element) (v : Handle) : Tells (start e v) fun _ t => t = .say (.call (.vector e .start)) :=
  Store.tells_call (.bind (.map _ (Store.silent_items e v)) fun _ => .pure _)

theorem tells_pushText (v item : Handle) :
    Tells (pushText v item) fun _ t => t = ⟨[.textTransfer], [.call (.vector .text .push)]⟩ := by
  refine tells_bind (Store.tells_enter ?_)
  refine (TextCalls.silent_takeBack item).before fun t => ?_
  refine tells_bind (Store.tells_count ?_)
  refine (Store.silent_items .text v).before fun ts => ?_
  refine tells_mono (Store.silent_replace v _) ?_
  rintro _ _ rfl
  rfl

/-- A pop tells of a text that was handed out, if it finds one. -/
theorem tells_popText (v : Handle) : Tells (popText v) fun h t =>
    t = ⟨if h.isSome then [.textAlloc] else [], [.call (.vector .text .pop)]⟩ := by
  refine tells_bind (Store.tells_enter ?_)
  refine (Store.silent_items .text v).before fun ts => ?_
  cases ts.back? with
  | none => exact tells_pure rfl
  | some t =>
    refine (Store.silent_replace v _).before fun _ => ?_
    refine tells_map (tells_mono (TextCalls.tells_handOut t) ?_)
    rintro h _ rfl
    rfl

theorem silent_lend (v : Handle) (i : UInt64) : Silent (lend v i) :=
  .bind (Store.silent_items .text v) fun _ => .pure _

theorem tells_getText (v : Handle) (i : UInt64) :
    Tells (getText v i) fun _ t => t = .say (.call (.vector .text .get)) := Store.tells_call (silent_lend v i)

theorem tells_getMutText (v : Handle) (i : UInt64) :
    Tells (getMutText v i) fun _ t => t = .say (.call (.vector .text .getMut)) := Store.tells_call (silent_lend v i)

section
variable (p : Primitive) (v : Handle)

theorem tells_pushScalar (x : p.Value) :
    Tells (pushScalar p v x) fun _ t => t = .say (.call (.vector (.scalar p) .push)) :=
  Store.tells_call (.bind (Store.silent_items (.scalar p) v) fun _ => Store.silent_replace v _)

theorem tells_popScalar : Tells (popScalar p v) fun _ t => t = .say (.call (.vector (.scalar p) .pop)) :=
  Store.tells_call (.bind (Store.silent_items (.scalar p) v) fun _ => .bind (Store.silent_replace v _) fun _ => .pure _)

theorem silent_copy (i : UInt64) : Silent (copy p v i) := .bind (Store.silent_items (.scalar p) v) fun _ => .pure _

theorem tells_getScalar (i : UInt64) : Tells (getScalar p v i) fun _ t => t = .say (.call (.vector (.scalar p) .get)) :=
  Store.tells_call (silent_copy p v i)

theorem tells_getMutScalar (i : UInt64) :
    Tells (getMutScalar p v i) fun _ t => t = .say (.call (.vector (.scalar p) .getMut)) :=
  Store.tells_call (silent_copy p v i)

end

end VectorCalls

/-- The exported functions by their entries: what the boundary lets a consumer call. -/
inductive Exported : {α : Type} → Entry → Call α → Prop
  | newText : Exported (.text .new) TextCalls.new
  | ofView (v : TextView) : Exported (.text .ofView) (TextCalls.ofView v)
  | free (h : Handle) : Exported (.text .free) (TextCalls.free h)
  | textLen (p : Place) : Exported (.text .len) (TextCalls.len p)
  | view (p : Place) : Exported (.text .view) (TextCalls.view p)
  | trim (p : Place) : Exported (.text .trim) (TextCalls.trim p)
  | append (p : Place) (v : TextView) : Exported (.text .append) (TextCalls.append p v)
  | clear (p : Place) : Exported (.text .clear) (TextCalls.clear p)
  | equals (p q : Place) : Exported (.text .equals) (TextCalls.equals p q)
  | hash (p : Place) : Exported (.text .hash) (TextCalls.hash p)
  | new (e : Element) : Exported (.vector e .new) (VectorCalls.new e)
  | drop (e : Element) (v : Handle) : Exported (.vector e .drop) (VectorCalls.drop e v)
  | len (e : Element) (v : Handle) : Exported (.vector e .len) (VectorCalls.len e v)
  | start (e : Element) (v : Handle) : Exported (.vector e .start) (VectorCalls.start e v)
  | pushText (v item : Handle) : Exported (.vector .text .push) (VectorCalls.pushText v item)
  | popText (v : Handle) : Exported (.vector .text .pop) (VectorCalls.popText v)
  | getText (v : Handle) (i : UInt64) : Exported (.vector .text .get) (VectorCalls.getText v i)
  | getMutText (v : Handle) (i : UInt64) : Exported (.vector .text .getMut) (VectorCalls.getMutText v i)
  | pushScalar (p : Primitive) (v : Handle) (x : p.Value) :
    Exported (.vector (.scalar p) .push) (VectorCalls.pushScalar p v x)
  | popScalar (p : Primitive) (v : Handle) : Exported (.vector (.scalar p) .pop) (VectorCalls.popScalar p v)
  | getScalar (p : Primitive) (v : Handle) (i : UInt64) :
    Exported (.vector (.scalar p) .get) (VectorCalls.getScalar p v i)
  | getMutScalar (p : Primitive) (v : Handle) (i : UInt64) :
    Exported (.vector (.scalar p) .getMut) (VectorCalls.getMutScalar p v i)

/-- There is a function for every entry. -/
theorem Exported.complete (e : Entry) : ∃ (α : Type) (c : Call α), Exported e c := by
  have h : Handle := Heap.next (.empty .growing)
  cases e with
  | text op =>
    cases op with
    | new => exact ⟨_, _, newText⟩
    | ofView => exact ⟨_, _, ofView .empty⟩
    | free => exact ⟨_, _, free h⟩
    | len => exact ⟨_, _, textLen (.whole h)⟩
    | view => exact ⟨_, _, view (.whole h)⟩
    | trim => exact ⟨_, _, trim (.whole h)⟩
    | append => exact ⟨_, _, append (.whole h) .empty⟩
    | clear => exact ⟨_, _, clear (.whole h)⟩
    | equals => exact ⟨_, _, equals (.whole h) (.whole h)⟩
    | hash => exact ⟨_, _, hash (.whole h)⟩
  | vector e op =>
    cases op with
    | new => exact ⟨_, _, new e⟩
    | drop => exact ⟨_, _, drop e h⟩
    | len => exact ⟨_, _, len e h⟩
    | start => exact ⟨_, _, start e h⟩
    | push =>
      cases e with
      | text => exact ⟨_, _, pushText h h⟩
      | scalar p => exact ⟨_, _, pushScalar p h p.zero⟩
    | pop =>
      cases e with
      | text => exact ⟨_, _, popText h⟩
      | scalar p => exact ⟨_, _, popScalar p h⟩
    | get =>
      cases e with
      | text => exact ⟨_, _, getText h 0⟩
      | scalar p => exact ⟨_, _, getScalar p h 0⟩
    | getMut =>
      cases e with
      | text => exact ⟨_, _, getMutText h 0⟩
      | scalar p => exact ⟨_, _, getMutScalar p h 0⟩

/-- An exported function says once that it was called, and of no other function. -/
theorem Exported.tells {α : Type} {e : Entry} {c : Call α} (exported : Exported e c) :
    Tells c fun _ t => t.records.filter LogRecord.isCall = [.call e] := by
  cases exported with
  | newText => exact tells_mono TextCalls.tells_new (by rintro _ _ rfl; rfl)
  | ofView v => exact tells_mono (TextCalls.tells_ofView v) (by rintro _ _ rfl; rfl)
  | free h => exact tells_mono (TextCalls.tells_free h) (by rintro _ _ rfl; rfl)
  | textLen p => exact tells_mono (TextCalls.tells_len p) (by rintro _ _ rfl; rfl)
  | view p => exact tells_mono (TextCalls.tells_view p) (by rintro _ _ rfl; rfl)
  | trim p => exact tells_mono (TextCalls.tells_trim p) (by rintro _ _ rfl; rfl)
  | append p v => exact tells_mono (TextCalls.tells_append p v) (by rintro _ _ rfl; rfl)
  | clear p => exact tells_mono (TextCalls.tells_clear p) (by rintro _ _ rfl; rfl)
  | equals p q => exact tells_mono (TextCalls.tells_equals p q) (by rintro _ _ rfl; rfl)
  | hash p => exact tells_mono (TextCalls.tells_hash p) (by rintro _ _ rfl; rfl)
  | new e => exact tells_mono (VectorCalls.tells_new e) (by rintro _ _ rfl; rfl)
  | drop e v => exact tells_mono (VectorCalls.tells_drop e v) (by rintro _ _ ⟨n, rfl⟩; rfl)
  | len e v => exact tells_mono (VectorCalls.tells_len e v) (by rintro _ _ rfl; rfl)
  | start e v => exact tells_mono (VectorCalls.tells_start e v) (by rintro _ _ rfl; rfl)
  | pushText v item => exact tells_mono (VectorCalls.tells_pushText v item) (by rintro _ _ rfl; rfl)
  | popText v => exact tells_mono (VectorCalls.tells_popText v) (by rintro _ _ rfl; rfl)
  | getText v i => exact tells_mono (VectorCalls.tells_getText v i) (by rintro _ _ rfl; rfl)
  | getMutText v i => exact tells_mono (VectorCalls.tells_getMutText v i) (by rintro _ _ rfl; rfl)
  | pushScalar p v x => exact tells_mono (VectorCalls.tells_pushScalar p v x) (by rintro _ _ rfl; rfl)
  | popScalar p v => exact tells_mono (VectorCalls.tells_popScalar p v) (by rintro _ _ rfl; rfl)
  | getScalar p v i => exact tells_mono (VectorCalls.tells_getScalar p v i) (by rintro _ _ rfl; rfl)
  | getMutScalar p v i => exact tells_mono (VectorCalls.tells_getMutScalar p v i) (by rintro _ _ rfl; rfl)

end Custody
