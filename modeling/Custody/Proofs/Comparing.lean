/-
  Custody.Proofs.Comparing — texts are compared and hashed by what they are, wherever they lie.

  Two texts that are looked at in any ways are equal where their histories tell of the same text, and have the
  same hash then (`World.Compares`). So a set of owners, whatever hasher it has, keeps one of each text; and of
  the owners that were taken into it each gives its text back once, on arrival or with the set, as heap, ledger
  and log say alike (`Store.Collected`).
-/
import Custody.Proofs.Talk
import Custody.Proofs.Views

namespace Custody

open scoped List

/-! ## Two places -/

/-- What comparisons of two places say, of which one holds `t` and the other `u`. Comparing changes nothing. -/
structure World.Compares (w : World) (p q : Place) (t u : String) : Prop where
  equals : wp (p.equals q) (fun b w' => (b ↔ t = u) ∧ w' = w) w
  equalsText : wp (p.equalsText u) (fun b w' => (b ↔ t = u) ∧ w' = w) w
  textEquals : wp (q.equalsText t) (fun b w' => (b ↔ t = u) ∧ w' = w) w
  storeHash : t = u → ∃ x, wp p.storeHash (fun y w' => y = x ∧ w' = w) w ∧ wp q.storeHash (fun y w' => y = x ∧ w' = w) w
  /-- Any hasher makes the same of both, whatever it was fed before. -/
  hashBy : t = u → ∀ {α : Type} (hasher : UInt64 → α), ∃ x,
    wp (p.hashBy hasher) (fun y w' => y = x ∧ w' = w) w ∧ wp (q.hashBy hasher) (fun y w' => y = x ∧ w' = w) w

theorem World.compares {w : World} {p q : Place} {t u : String} (there : w.textAt p = some t)
    (there' : w.textAt q = some u) (fits : Wire.Fits t) (fits' : Wire.Fits u) : w.Compares p q t u := by
  have hashBy {p : Place} {t : String} (there : w.textAt p = some t) {α : Type} (hasher : UInt64 → α) :
      wp (p.hashBy hasher) (fun y w' => y = hasher (textHash t) ∧ w' = w) w :=
    wp_bind (TextCalls.wp_hash there (wp_pure ⟨rfl, rfl⟩))
  constructor
  case equals => exact Place.wp_equals there there' ⟨beq_iff_eq, rfl⟩
  case equalsText =>
    refine Place.wp_equalsText there ⟨?_, rfl⟩
    rw [Wire.words_text fits]
    exact beq_iff_eq
  case textEquals =>
    refine Place.wp_equalsText there' ⟨?_, rfl⟩
    rw [Wire.words_text fits', beq_iff_eq]
    exact eq_comm
  case storeHash =>
    rintro rfl
    exact ⟨textHash t, TextCalls.wp_hash there ⟨rfl, rfl⟩, TextCalls.wp_hash there' ⟨rfl, rfl⟩⟩
  case hashBy =>
    rintro rfl α hasher
    exact ⟨hasher (textHash t), hashBy there hasher, hashBy there' hasher⟩

/-! ## What is given back, as the log has it -/

/-- The handle that an owner gives back. -/
def LogRecord.given? : LogRecord → Option Handle
  | freeing _ h => some h
  | _ => none

/-- The handles that owners gave back, in order. -/
def LogRecord.given (rs : List LogRecord) : List Handle := rs.filterMap given?

def Talk.given (t : Talk) : List Handle := LogRecord.given t.records

namespace Talk

@[simp] theorem given_silence : silence.given = [] := rfl

@[simp] theorem given_append (t t' : Talk) : (t ++ t').given = t.given ++ t'.given := List.filterMap_append

/-- Of what is given back the log always hears. -/
theorem given_heard (settings : Settings) (t : Talk) : LogRecord.given (t.heard settings) = t.given := by
  have same : (fun r => (LogRecord.heard settings r).bind LogRecord.given?) = LogRecord.given? := by
    funext r
    cases r with
    | call e => cases on : settings.traceCalls <;> simp [LogRecord.heard, LogRecord.given?, on]
    | _ => rfl
  rw [LogRecord.given, heard, List.filterMap_filterMap, same]
  rfl

end Talk

/-- What a call tells is what its store's log gains. -/
theorem Tells.log {α : Type} {c : Call α} {Q : α → Talk → Prop} (tells : Tells c Q) {st st' : Store} {a : α}
    (run : c.run st = .ok (a, st')) : ∃ t, Q a t ∧ st'.log = st.log ++ (t.heard st.settings).toArray := by
  rcases tells st with ⟨stop, fails⟩ | ⟨a', u, t, runs, -, post⟩
  · have fails : c.run st = .error stop := fails st.settings st.log
    rw [run] at fails
    cases fails
  · have runs : c.run st = .ok (a', { u with settings := st.settings, log := _ }) := runs st.settings st.log
    rw [run] at runs
    cases runs
    exact ⟨t, post, rfl⟩

namespace TextSet

variable (k : Lookup)

/-- The handles of the members. -/
def handles (s : TextSet) : List Handle := s.map fun m => m.2.handle

theorem tells_meets (o : Owner) : ∀ s : TextSet, Tells (s.meets o) fun _ t => t.given = []
  | [] => tells_pure rfl
  | m :: s => by
    refine tells_bind (tells_mono (TextCalls.tells_equals _ _) ?_)
    rintro same _ rfl
    cases same with
    | true => exact tells_pure rfl
    | false => exact tells_meets o s

theorem tells_drop_member (h : Handle) : Tells (TextOwner.drop (.adopt h)) fun _ t => t.given = [h] := by
  refine tells_bind (Store.tells_say (fun _ => rfl) (tells_mono (TextCalls.tells_free h) ?_))
  rintro _ _ rfl
  rfl

/-- An owner that comes in stays or is given back. -/
theorem tells_insertBy (s : TextSet) (h : Handle) :
    Tells (s.insertBy k (.adopt h)) fun s' t => s'.handles ++ t.given ~ h :: s.handles := by
  refine tells_bind (tells_bind (tells_mono (TextCalls.tells_hash _) ?_))
  rintro x _ rfl
  refine tells_pure (tells_bind (tells_mono (tells_meets _ _) ?_))
  rintro found t none
  cases found with
  | true =>
    refine tells_bind (tells_mono (tells_drop_member h) ?_)
    rintro _ t' given
    refine tells_pure ?_
    have all : (Talk.say (.call (.text .hash)) ++ .silence ++ (t ++ (t' ++ .silence))).given = [h] := by
      rw [Talk.given_append, Talk.given_append, Talk.given_append, Talk.given_append, none, given]
      rfl
    rw [all]
    exact List.perm_append_singleton h s.handles
  | false =>
    refine tells_pure ?_
    have all : (Talk.say (.call (.text .hash)) ++ .silence ++ (t ++ .silence)).given = [] := by
      rw [Talk.given_append, Talk.given_append, Talk.given_append, none]
      rfl
    rw [all, List.append_nil]
    rfl

theorem tells_gatherBy (hs : List Handle) : ∀ s : TextSet,
    Tells (s.gatherBy k (hs.map .adopt)) fun s' t => s'.handles ++ t.given ~ hs ++ s.handles := by
  induction hs with
  | nil =>
    intro s
    exact tells_pure (by simp)
  | cons h hs ih =>
    intro s
    refine tells_bind (tells_mono (tells_insertBy k s h) ?_)
    intro s' t first
    refine tells_mono (ih s') ?_
    intro s'' t' rest
    rw [Talk.given_append]
    calc s''.handles ++ (t.given ++ t'.given) ~ s''.handles ++ t'.given ++ t.given := by
          rw [List.append_assoc]
          exact List.perm_append_comm.append_left _
      _ ~ hs ++ s'.handles ++ t.given := rest.append_right _
      _ ~ hs ++ (h :: s.handles) := by
          rw [List.append_assoc]
          exact first.append_left _
      _ ~ h :: hs ++ s.handles := List.perm_middle

theorem tells_drop (ms : List (Handle × String)) :
    Tells (ofMembers k ms).drop fun _ t => t.given = (ofMembers k ms).handles := by
  induction ms with
  | nil => exact tells_pure rfl
  | cons m ms ih =>
    refine tells_bind (tells_mono (tells_drop_member m.1) ?_)
    intro _ t first
    refine tells_mono ih ?_
    intro _ t' rest
    rw [Talk.given_append, first, rest]
    rfl

end TextSet

/-! ## Owners that are taken into a set -/

/-- What becomes of owners that are taken into a set: `set` is reached in `st₁`, and its end in `st₂`. -/
structure Store.Collected (st : Store) (k : Lookup) (owners : List Owner) (ts : List String) (set : TextSet)
    (st₁ st₂ : Store) : Prop where
  gathered : (TextSet.gatherBy k [] owners).run st = .ok (set, st₁)
  ended : set.drop.run st₁ = .ok ((), st₂)
  /-- The members are owners that came in, one of each text. -/
  members : ∃ ms : List (Handle × String), set.map (·.2) = ms.map (fun m => Owner.adopt m.1) ∧
    (∀ m ∈ ms, Owner.adopt m.1 ∈ owners ∧ st₁.heap.find? m.1 = some (.text m.2)) ∧
    (ms.map (·.2)).Nodup ∧ ∀ t, t ∈ ms.map (·.2) ↔ t ∈ ts
  size : set.length = ts.dedup.length
  /-- In the end none of them is left, and all else is as it was. -/
  heap : ∀ h, st₂.heap.find? h = if h ∈ owners.map (·.handle) then none else st.heap.find? h
  ledger : st₂.ledger = { st.ledger with textFrees := st.ledger.textFrees + UInt64.ofNat owners.length }
  counted : st.ledger.textFrees.toNat + owners.length < 2 ^ 64 →
    st₂.ledger.textFrees.toNat = st.ledger.textFrees.toNat + owners.length
  /-- Each of them was given back once. -/
  log : ∃ rs : List LogRecord, st₂.log = st.log ++ rs.toArray ∧ LogRecord.given rs ~ owners.map (·.handle)

theorem Ledger.record_frees (l : Ledger) (n : Nat) : (List.replicate n Event.textFree).foldl Ledger.record l =
    { l with textFrees := l.textFrees + UInt64.ofNat n } := by
  induction n generalizing l with
  | zero => simp
  | succ n ih =>
    rw [List.replicate_succ, List.foldl_cons, ih]
    simp [Ledger.record, UInt64.add_assoc, UInt64.add_comm]

theorem Store.collected (k : Lookup) {st : Store} (ls : List (Handle × String))
    (live : ∀ l ∈ ls, st.heap.find? l.1 = some (.text l.2)) (apart : (ls.map (·.1)).Nodup) :
    ∃ set st₁ st₂, st.Collected k (ls.map fun l => .adopt l.1) (ls.map (·.2)) set st₁ st₂ := by
  obtain ⟨_, st₁, gathered, ms, rfl, members, one, same, ends⟩ := TextSet.wp_collect (k := k) ls live apart st rfl
  obtain ⟨_, st₂, ended, world⟩ := ends st₁ rfl
  have ledger : st₂.ledger = { st.ledger with textFrees := st.ledger.textFrees + UInt64.ofNat ls.length } :=
    (congrArg World.ledger world).trans (Ledger.record_frees ..)
  have owners : ((ls.map fun l => Owner.adopt l.1).map (·.handle)) = ls.map (·.1) := by
    rw [List.map_map]
    rfl
  refine ⟨_, st₁, st₂, gathered, ended, ⟨ms, ?_, ?_, one, same⟩, ?_, ?_, ?_, ?_, ?_⟩
  · rw [TextSet.ofMembers, List.map_map]
    rfl
  · intro m hm
    exact ⟨List.mem_map_of_mem (members m hm).1, (members m hm).2⟩
  · have perm : ms.map (·.2) ~ (ls.map (·.2)).dedup :=
      (List.perm_ext_iff_of_nodup one (List.nodup_dedup _)).mpr fun t => by rw [same t, List.mem_dedup]
    rw [← perm.length_eq, TextSet.ofMembers, List.length_map, List.length_map]
  · intro h
    rw [owners]
    exact congrFun (congrArg World.find world) h
  · rw [ledger, List.length_map]
  · intro small
    rw [List.length_map] at small ⊢
    rw [ledger]
    simp only [UInt64.toNat_add, UInt64.toNat_ofNat']
    omega
  · -- what stays is given back with the set, what does not on arrival
    have tells := TextSet.tells_gatherBy k (ls.map (·.1)) []
    rw [List.map_map] at tells
    obtain ⟨t, first, log₁⟩ := tells.log gathered
    obtain ⟨t', rest, log₂⟩ := (TextSet.tells_drop k ms).log ended
    refine ⟨t.heard st.settings ++ t'.heard st₁.settings, ?_, ?_⟩
    · rw [log₂, log₁, ← List.append_toArray, Array.append_assoc]
    · rw [LogRecord.given, List.filterMap_append, ← LogRecord.given, ← LogRecord.given, Talk.given_heard,
        Talk.given_heard, rest, owners]
      exact List.perm_append_comm.trans (by simpa [TextSet.handles] using first)

/-- The owners in the slots, in the order of the slots. -/
def Session.ownersIn (s : Session) (slots : List Nat) : List Owner := slots.filterMap s.texts.get?

/-- The texts that the histories in the slots tell of. -/
def Chronicle.textsIn (c : Chronicle) (slots : List Nat) : List String :=
  slots.filterMap fun i => ((c .texts).get? i).map History.text

/-- Owners in different slots have texts of their own. -/
theorem Represents.heldIn {s : Session} {c : Chronicle} {p : Plain} (rep : Represents s s.store.world p)
    (tracks : c.Tracks p) {slots : List Nat} (apart : slots.Nodup) :
    ∃ ls : List (Handle × String), s.ownersIn slots = ls.map (fun l => .adopt l.1) ∧
      c.textsIn slots = ls.map (·.2) ∧ (∀ l ∈ ls, s.store.heap.find? l.1 = some (.text l.2)) ∧
      (ls.map (·.1)).Nodup ∧ ∀ l ∈ ls, ∃ i ∈ slots, s.handle? ⟨.texts, i⟩ = some l.1 := by
  induction slots with
  | nil => exact ⟨[], rfl, rfl, List.forall_mem_nil _, .nil, List.forall_mem_nil _⟩
  | cons i slots ih =>
    obtain ⟨new, apart⟩ := List.nodup_cons.mp apart
    obtain ⟨ls, owners, texts, live, distinct, held⟩ := ih apart
    have later : ∀ l ∈ ls, ∃ j ∈ i :: slots, s.handle? ⟨.texts, j⟩ = some l.1 := by
      intro l hl
      obtain ⟨j, hj, at_j⟩ := held l hl
      exact ⟨j, List.mem_cons_of_mem _ hj, at_j⟩
    have told : Option.Rel _ (s.texts.get? i) ((c .texts).get? i) := rep.told tracks .texts i
    rw [Session.ownersIn, Chronicle.textsIn, List.filterMap_cons, List.filterMap_cons]
    generalize entry : s.texts.get? i = x at told ⊢
    generalize (c .texts).get? i = y at told ⊢
    cases told with
    | none => exact ⟨ls, owners, texts, live, distinct, later⟩
    | @some x y told =>
      obtain ⟨h, rfl, live'⟩ := told
      have here : s.handle? ⟨.texts, i⟩ = some h := s.handle?_of_entry .texts (v := y.text) entry
      refine ⟨(h, y.text) :: ls, ?_, ?_, List.forall_mem_cons.mpr ⟨live', live⟩, ?_, ?_⟩
      · exact congrArg (Owner.adopt h :: ·) owners
      · exact congrArg (y.text :: ·) texts
      · refine List.nodup_cons.mpr ⟨fun mem => ?_, distinct⟩
        obtain ⟨l, hl, rfl⟩ := List.mem_map.mp mem
        obtain ⟨j, hj, at_j⟩ := held l hl
        cases rep.single here at_j
        exact new hj
      · exact List.forall_mem_cons.mpr ⟨⟨i, List.mem_cons_self, here⟩, later⟩

namespace Session

theorem run_after {α β : Type} {c : Act α} {k : α → Act β} {s s' : Session} {x : α} (ran : c.run s = .ok (x, s')) :
    (c >>= k).run s = (k x).run s' := by
  rw [StateT.run_bind, ran]
  rfl

theorem ownersIn_clear {s : Session} {i : Nat} {slots : List Nat} (other : i ∉ slots) (st : Store) :
    ({ s with store := st, texts := s.texts.clear i } : Session).ownersIn slots = s.ownersIn slots := by
  refine List.filterMap_congr fun j hj => ?_
  have ne : i ≠ j := fun e => other (e ▸ hj)
  rw [Slots.get?_clear, if_neg ne]

/-- A session takes owners into a set as sets do that look for texts in the standard way. -/
theorem gatherSet_eq (slots : List Nat) : ∀ {s : Session} {set set' : TextSet} {st : Store}, slots.Nodup →
    (∀ i ∈ slots, (s.texts.get? i).isSome) →
    (set.gatherBy .standard (s.ownersIn slots)).run s.store = .ok (set', st) →
    (gatherSet set slots).run s =
      .ok ((set', true), { s with store := st, texts := slots.foldl Slots.clear s.texts }) := by
  induction slots with
  | nil =>
    intro s set set' st _ _ run
    cases run
    rfl
  | cons i slots ih =>
    intro s set set' st apart filled run
    obtain ⟨new, apart⟩ := List.nodup_cons.mp apart
    obtain ⟨o, entry⟩ := Option.isSome_iff_exists.mp (filled i List.mem_cons_self)
    have owners : s.ownersIn (i :: slots) = o :: s.ownersIn slots := by
      rw [ownersIn, List.filterMap_cons, entry]
      rfl
    rw [owners, TextSet.gatherBy, ← TextSet.insert_eq, StateT.run_bind] at run
    cases first : (set.insert o).run s.store with
    | error f =>
      rw [first] at run
      cases run
    | ok r =>
      obtain ⟨set₁, st₁⟩ := r
      rw [first] at run
      have taken : (Table.texts.take i).run s = .ok (o, { s with texts := s.texts.clear i }) := by
        simp [Table.take, Table.peek, Table.texts, entry]
        rfl
      have added : (call (set.insert o)).run { s with texts := s.texts.clear i } =
          .ok (set₁, { s with store := st₁, texts := s.texts.clear i }) := call_ok first
      have looked : (get : Act Session).run s = .ok (s, s) := rfl
      rw [gatherSet, run_after looked, entry]
      show (Table.texts.take i >>= fun o => call (set.insert o) >>= fun set => gatherSet set slots).run s = _
      rw [run_after taken, run_after added]
      refine ih apart (fun j hj => ?_) (by rw [ownersIn_clear new]; exact run)
      have ne : i ≠ j := fun e => new (e ▸ hj)
      rw [Slots.get?_clear, if_neg ne]
      exact filled j (List.mem_cons_of_mem _ hj)

/-- What becomes of the owners in some slots, which hold the given texts, when they are taken into a set. -/
structure Collects (s : Session) (slots : List Nat) (ts : List String) : Prop where
  live : List.Forall₂ (fun o t => o.ownsMemory ∧ s.store.heap.find? o.handle = some (.text t)) (s.ownersIn slots) ts
  apart : ((s.ownersIn slots).map (·.handle)).Nodup
  collected : ∀ k, ∃ set st₁ st₂, s.store.Collected k (s.ownersIn slots) ts set st₁ st₂
  /-- The session's own sets are among them. -/
  distinct : (∀ i ∈ slots, (s.texts.get? i).isSome) → ∃ set st₁ s',
    s.store.Collected .standard (s.ownersIn slots) ts set st₁ s'.store ∧
      s.step (.countDistinct slots) = .ok (.number (UInt64.ofNat set.length), s')

end Session

theorem Represents.collects {s : Session} {c : Chronicle} {p : Plain} (rep : Represents s s.store.world p)
    (tracks : c.Tracks p) {slots : List Nat} (apart : slots.Nodup) : s.Collects slots (c.textsIn slots) := by
  obtain ⟨ls, owners, texts, live, distinct, -⟩ := rep.heldIn tracks apart
  have collected (k : Lookup) : ∃ set st₁ st₂, s.store.Collected k (s.ownersIn slots) (c.textsIn slots) set st₁ st₂ := by
    rw [owners, texts]
    exact Store.collected k ls live distinct
  refine ⟨?_, ?_, collected, fun filled => ?_⟩
  · rw [owners, texts, List.forall₂_map_left_iff, List.forall₂_map_right_iff, List.forall₂_same]
    exact fun l hl => ⟨rfl, live l hl⟩
  · rw [owners, List.map_map]
    exact distinct
  · obtain ⟨set, st₁, st₂, all⟩ := collected .standard
    refine ⟨set, st₁, { s with store := st₂, texts := slots.foldl Slots.clear s.texts }, all, ?_⟩
    have gathered := Session.gatherSet_eq slots apart filled all.gathered
    have ended : (Session.call set.drop).run { s with store := st₁, texts := slots.foldl Slots.clear s.texts } = _ :=
      Session.call_ok all.ended
    have performed : (Session.perform (.countDistinct slots)).run s = .ok (.number (UInt64.ofNat set.length),
        { s with store := st₂, texts := slots.foldl Slots.clear s.texts }) := by
      rw [Session.perform, Session.run_after gathered, Session.run_after ended]
      rfl
    rw [Session.step, performed]

/-- After any operations, two texts that are looked at in any ways compare as their histories tell, and owners
    in any slots, taken into any set in the order of the slots, leave one member of each text and are all given
    back once. -/
theorem compared_by_text (a : Allocator) (settings : Settings) (ops : List Op)
    (fits : ({ Plain.start with settings } : Plain).FitsAlong ops) :
    ∃ answers s, (Session.startOn (.fresh a settings)).run ops = .ok (answers, s) ∧
      (∀ way way' h h', (Chronicle.start.run ops).find? way = some h →
        (Chronicle.start.run ops).find? way' = some h' →
          wp (do return (← s.lend way, ← s.lend way')) (fun places w => w = s.store.world ∧
            ∃ p q, places = (some p, some q) ∧ w.Compares p q h.text h'.text) s.store.world) ∧
      ∀ slots : List Nat, slots.Nodup → s.Collects slots ((Chronicle.start.run ops).textsIn slots) := by
  obtain ⟨s, run, rep⟩ := start_represents a settings ops
  rw [Plain.run_fits ops fits] at run rep
  have tracks := run_tracks ops (start_tracks settings)
  refine ⟨_, s, run, fun way way' h h' found found' => ?_, fun slots apart => rep.collects tracks apart⟩
  refine wp_bind (wp_mono (lend_holds rep tracks way) fun x w lent => ?_)
  obtain ⟨lent, rfl⟩ := lent
  refine wp_bind (wp_mono (lend_holds rep tracks way') fun y w lent' => ?_)
  obtain ⟨lent', rfl⟩ := lent'
  rw [found] at lent
  rw [found'] at lent'
  cases lent with
  | @some p _ there =>
    cases lent' with
    | @some q _ there' =>
      refine wp_pure ⟨rfl, p, q, rfl, World.compares there there' ?_ ?_⟩
      · exact rep.textAt_fits fits.end there
      · exact rep.textAt_fits fits.end there'

/-- All texts have the same hash, and all members are asked. -/
def Lookup.colliding : Lookup := ⟨fun _ => 0, fun _ s => s, id, fun mem _ => mem⟩

/-- For example, a text that was made in two ways is one to a set that has the same hash for every text. -/
theorem compared_by_text_colliding :
    ∃ answers s, (Session.startOn (.fresh .growing .initial)).run
        [.textFrom "ab", .textFrom "c", .textFrom "a", .editText 2 .exclusive [.push "b"]] = .ok (answers, s) ∧
      (∃ p q st, (do return (← s.lend (.owner 0 .shared), ← s.lend (.owner 2 .exclusive)) : Call _).run s.store =
        .ok ((some p, some q), st) ∧ s.store.world.Compares p q "ab" "ab") ∧
      ∃ set st₁ st₂, s.store.Collected .colliding (s.ownersIn [2, 1, 0]) ["ab", "c", "ab"] set st₁ st₂ ∧
        set.length = 2 ∧ st₂.ledger.textFrees.toNat = 3 := by
  obtain ⟨answers, s, run, compares, collects⟩ := compared_by_text .growing .initial
    [.textFrom "ab", .textFrom "c", .textFrom "a", .editText 2 .exclusive [.push "b"]]
    ⟨by decide, show Wire.Fits "ab" by decide, by decide, show Wire.Fits "c" by decide, by decide,
      show Wire.Fits "a" by decide, by decide, show ∀ edit ∈ [Edit.push "b"], edit.Fits by simp [Edit.Fits]; decide,
      show Plain.Fits _ by decide⟩
  obtain ⟨_, st, lent, world, p, q, rfl, same⟩ :=
    compares (.owner 0 .shared) (.owner 2 .exclusive) ⟨"ab", []⟩ ⟨"a", [.push "b"]⟩ rfl rfl s.store rfl
  obtain ⟨set, st₁, st₂, all⟩ := (collects [2, 1, 0] (by decide)).collected .colliding
  have texts : (Chronicle.start.run [.textFrom "ab", .textFrom "c", .textFrom "a",
      .editText 2 .exclusive [.push "b"]]).textsIn [2, 1, 0] = ["ab", "c", "ab"] := by decide
  rw [texts] at all
  rw [world] at same
  refine ⟨answers, s, run, ⟨p, q, st, lent, same⟩, set, st₁, st₂, all, all.size, ?_⟩
  cases run
  exact all.counted (by decide)

end Custody
