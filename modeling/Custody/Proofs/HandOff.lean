/-
  Custody.Proofs.HandOff — a value that changes hands stays what it is.

  An owner lets go of its handle, and a new one is made from it, of the same kind or, for a text, of the other;
  in between, the handle is nobody's. A session is told its operations and, anywhere among them, which values to
  hand on (`Relay`). Wherever the values are by then, it is told what it is told without any of that, has the same
  texts and vectors, and counts the same, also at its end (`hand_offs_invisible`). Only an operation has to find
  what it names as an owner of the kind that it wants (`Relay.Ready`), which it does if every handle is taken up
  again at once (`Relay.ready_rebuilds`).

  `Handed` is what an operation and a hand-over preserve.
-/
import Custody.Proofs.Drops
import Custody.Proofs.NamedSteps

namespace Custody

/-! ## Handing on -/

namespace Op

/-- The operation by which the value of a slot goes over to another shelf. -/
def handing : Holder → Shelf → Option Op
  | ⟨.texts, i⟩, .released => some (.releaseText i)
  | ⟨.owned, i⟩, .released => some (.releaseOwned i)
  | ⟨.released, i⟩, .texts => some (.adoptText i)
  | ⟨.released, i⟩, .owned => some (.adoptOwned i)
  | ⟨.vectors, i⟩, .releasedVectors => some (.releaseVector i)
  | ⟨.releasedVectors, i⟩, .vectors => some (.adoptVector i)
  | _, _ => none

end Op

namespace Shelf

/-- Where a handle lies that an owner of this kind has let go of. -/
def raw : Shelf → Shelf
  | texts | owned | released => released
  | vectors | releasedVectors => releasedVectors

/-- Whether values go from one shelf to the other. -/
def PassesTo (k k' : Shelf) : Prop := ∀ i, Op.handing ⟨k, i⟩ k' ≠ none

end Shelf

/-- The slot's value lies somewhere else now. -/
def Names.move (a : Names) (q r : Holder) : Names := { a with find := Function.update a.find q r }

/-- What a consumer does with its session, and has done with its values. -/
inductive Relay where
  | does (op : Op)
  /-- The value of a slot goes over to another shelf. -/
  | hand (q : Holder) (k : Shelf)

namespace Relay

/-- The operations alone. -/
def ops : List Relay → List Op
  | [] => []
  | .does op :: rest => op :: ops rest
  | .hand .. :: rest => ops rest

/-- In which form the values are at the end. -/
def forms : (Holder → Shelf) → List Relay → Holder → Shelf
  | form, [] => form
  | form, .does _ :: rest => forms form rest
  | form, .hand q k :: rest => forms (Function.update form q k) rest

/-- Values are handed from owner to handle and from handle to owner, and an operation finds an owner of the kind
    that it wants. -/
def Ready : (Holder → Shelf) → List Relay → Prop
  | _, [] => True
  | form, .does op :: rest =>
    (∀ q ∈ op.names, form q = q.shelf ∨ op.EndsOwner ∧ (form q = .texts ∨ form q = .owned)) ∧ Ready form rest
  | form, .hand q k :: rest => (form q).PassesTo k ∧ Ready (Function.update form q k) rest

/-- An owner lets go, and another of its kind is made from the handle. -/
def rebuild (q : Holder) : List Relay := [.hand q q.shelf.raw, .hand q q.shelf]

/-- Where every owner is made again at once, there is nothing that an operation has to wait for. -/
theorem ready_rebuilds (parts : List (Op ⊕ Holder)) (own : ∀ q, .inr q ∈ parts → q.shelf.owns) :
    Ready Holder.shelf (parts.flatMap (Sum.elim (fun op => [.does op]) rebuild)) ∧
      forms Holder.shelf (parts.flatMap (Sum.elim (fun op => [.does op]) rebuild)) = Holder.shelf := by
  induction parts with
  | nil => exact ⟨trivial, rfl⟩
  | cons part parts ih =>
    have later := ih fun q mem => own q (List.mem_cons_of_mem _ mem)
    cases part with
    | inl op => exact ⟨⟨fun q _ => .inl rfl, later.1⟩, later.2⟩
    | inr q =>
      have back : Function.update (Function.update Holder.shelf q q.shelf.raw) q q.shelf = Holder.shelf := by
        rw [Function.update_idem, Function.update_eq_self]
      have passes : q.shelf.PassesTo q.shelf.raw ∧ q.shelf.raw.PassesTo q.shelf := by
        have owns := own q List.mem_cons_self
        cases k : q.shelf with
        | released | releasedVectors =>
          rw [k] at owns
          cases owns
        | _ => exact ⟨fun i => Option.some_ne_none _, fun i => Option.some_ne_none _⟩
      simp only [List.flatMap_cons, Sum.elim_inr, rebuild, List.cons_append, List.nil_append, Ready, forms, back,
        Function.update_self]
      exact ⟨⟨passes.1, passes.2, later.1⟩, later.2⟩

end Relay

namespace Session

/-- The value of the consumer's slot `q` goes over to another shelf. -/
def hand (s : Session) (a : Names) (q : Holder) (k : Shelf) : Except Fault (Names × Session) :=
  match Op.handing (a.place s.nexts q) k with
  | none => .ok (a, s)
  | some op => do
    let (answer, s) ← s.step op
    match answer with
    | .slot i => .ok (a.move q ⟨k, i⟩, s)
    | _ => .ok (a, s)

/-- What the operations of a relay are answered, where the slots are by then, and the session after it. -/
def relay (s : Session) (a : Names) : List Relay → Except Fault (List Answer × Names × Session)
  | [] => .ok ([], a, s)
  | .does op :: rest => do
    let (answer, a, s) ← s.stepBy a op
    let (answers, a, s) ← s.relay a rest
    .ok (answer :: answers, a, s)
  | .hand q k :: rest => do
    let (a, s) ← s.hand a q k
    s.relay a rest

end Session

/-! ## One value goes over -/

namespace Plain

/-- The value of slot `r` goes over to another shelf. -/
structure Passed (P : Plain) (r : Holder) (k : Shelf) (o : Object) (P' : Plain) : Prop where
  next : ∀ k' : Shelf, (k'.plain.of P').next = if k' = k then (k.plain.of P).next + 1 else (k'.plain.of P).next
  object? : ∀ q, P'.object? q = if q = ⟨k, (k.plain.of P).next⟩ then some o else if q = r then none else P.object? q
  deeds : P'.deeds = P.deeds
  noted : P'.settings = P.settings ∧ P'.mark = P.mark

/-- What an operation does that takes a value from one shelf and puts it on another. -/
theorem step_passes {op : Op} {r : Holder} {k : Shelf} {wire : Wire} {P : Plain} (c : r.shelf.Value → k.Value)
    (same : ∀ v, k.object (c v) = r.shelf.object v)
    (performs : perform wire op = do let v ← r.shelf.plain.take r.slot; return Answer.slot (← k.plain.bind (c v))) :
    (P.object? r = none ∧ P.step wire op = (.refused .emptySlot, P)) ∨
      ∃ o P', P.object? r = some o ∧ P.step wire op = (.slot (k.plain.of P).next, P') ∧ P.Passed r k o P' := by
  cases at_r : (r.shelf.plain.of P).get? r.slot with
  | none =>
    refine .inl ⟨by simp [object?, at_r], ?_⟩
    rw [step, performs, StateT.run_bind, run_take_none _ at_r]
    rfl
  | some v =>
    refine .inr ⟨r.shelf.object v, k.plain.set (r.shelf.plain.set P ((r.shelf.plain.of P).clear r.slot))
      ((k.plain.of (r.shelf.plain.set P ((r.shelf.plain.of P).clear r.slot))).add (c v)), object?_of_get? at_r, ?_, ?_⟩
    · rw [step, performs, StateT.run_bind, run_take _ at_r, ← Shelf.next_set_clear P r.slot]
      rfl
    · constructor
      case next =>
        intro k'
        rw [Shelf.next_set_add, Shelf.next_set_clear, Shelf.next_set_clear]
      case object? =>
        intro q
        rw [object?_add_eq, object?_clear_eq, Shelf.next_set_clear, same]
      case deeds => rw [Shelf.deeds_set, Shelf.deeds_set]
      case noted => simp only [Shelf.settings_set, Shelf.plain_mark_set, and_self]

/-- A value that there is goes over, as what it is. -/
theorem step_handing {op : Op} {r : Holder} {k : Shelf} (handing : Op.handing r k = some op) (wire : Wire) (P : Plain) :
    (P.object? r = none ∧ P.step wire op = (.refused .emptySlot, P)) ∨
      ∃ o P', P.object? r = some o ∧ P.step wire op = (.slot (k.plain.of P).next, P') ∧ P.Passed r k o P' := by
  obtain ⟨k', i⟩ := r
  cases k' <;> cases k <;> cases handing <;> exact step_passes id (fun _ => rfl) rfl

end Plain

namespace Names

theorem find_move_self (a : Names) (q r : Holder) : (a.move q r).find q = r := Function.update_self ..

theorem find_move_ne (a : Names) (r : Holder) {q q' : Holder} (ne : q' ≠ q) : (a.move q r).find q' = a.find q' :=
  Function.update_of_ne ne ..

/-- A value in use has gone over. -/
theorem Match.move {D : Holder → Prop} {a : Names} {p P P' : Plain} {q : Holder} {k : Shelf} {o : Object}
    (m : a.Match D p P) (own : D q) (live : p.object? q = some o) (passed : P.Passed (a.find q) k o P') :
    (a.move q ⟨k, (k.plain.of P).next⟩).Match D p P' := by
  have alive : p.object? q ≠ none := by simp [live]
  refine m.renew q m.next (fun _ => Nat.le_refl _) passed.next (find_move_self ..)
    (fun q' ne made => ⟨made, find_move_ne a _ ne⟩) ?_ (fun _ _ => rfl) fun q' ne own' made => ?_
  · rw [passed.object?, if_pos rfl, live]
  · rw [passed.object?, if_neg (m.find_ne_next made k), if_neg (m.find_ne own own' alive made ne)]

end Names

/-! ## What is preserved -/

/-- The session `P` has the values `p` of the consumer, each in the form that it was left in, and nothing else. -/
structure Handed (form : Holder → Shelf) (a : Names) (p P : Plain) : Prop where
  matched : a.Match (fun _ => True) p P
  covered : ∀ r, P.object? r ≠ none → ∃ q, q.slot < a.next q.shelf ∧ a.find q = r
  /-- A value that was to go over before it was made is still where it was made. -/
  formed : ∀ q, p.object? q ≠ none → (a.find q).shelf = form q ∨ (a.find q).shelf = q.shelf
  deeds : P.deeds = p.deeds
  noted : P.settings = p.settings ∧ P.mark = p.mark

namespace Handed

variable {form : Holder → Shelf} {a : Names} {p P : Plain} (hd : Handed form a p P)

include hd

theorem find_of_live {q : Holder} (live : p.object? q ≠ none) (n : Shelf → Nat) : a.place n q = a.find q :=
  if_pos (hd.matched.made live)

theorem live_of_find {q : Holder} (made : q.slot < a.next q.shelf) : P.object? (a.find q) = p.object? q :=
  hd.matched.same q trivial made

/-- A value goes over. -/
theorem pass {q : Holder} {k : Shelf} {o : Object} {P' : Plain} (live : p.object? q = some o)
    (passed : P.Passed (a.find q) k o P') :
    Handed (Function.update form q k) (a.move q ⟨k, (k.plain.of P).next⟩) p P' := by
  constructor
  case matched => exact hd.matched.move trivial live passed
  case covered =>
    intro r there
    rw [passed.object?] at there
    by_cases new : r = ⟨k, (k.plain.of P).next⟩
    · exact ⟨q, hd.matched.made (by simp [live]), (a.find_move_self ..).trans new.symm⟩
    · rw [if_neg new] at there
      by_cases gone : r = a.find q
      · simp [gone] at there
      · rw [if_neg gone] at there
        obtain ⟨q', made, same⟩ := hd.covered r there
        refine ⟨q', made, (a.find_move_ne _ ?_).trans same⟩
        rintro rfl
        exact gone same.symm
  case formed =>
    intro q' live'
    by_cases e : q' = q
    · subst e
      rw [Names.find_move_self, Function.update_self]
      exact .inl rfl
    · rw [Names.find_move_ne _ _ e, Function.update_of_ne e]
      exact hd.formed q' live'
  case deeds => exact passed.deeds.trans hd.deeds
  case noted => exact ⟨passed.noted.1.trans hd.noted.1, passed.noted.2.trans hd.noted.2⟩

/-- A value stays where it is, because it is there already or because there is none. -/
theorem stay {q : Holder} {k : Shelf}
    (home : p.object? q ≠ none → (a.find q).shelf = k ∨ (a.find q).shelf = q.shelf) :
    Handed (Function.update form q k) a p P := by
  refine ⟨hd.matched, hd.covered, fun q' live => ?_, hd.deeds, hd.noted⟩
  by_cases e : q' = q
  · subst e
    rw [Function.update_self]
    exact home live
  · rw [Function.update_of_ne e]
    exact hd.formed q' live

/-- Handing a value on is not seen by the consumer. -/
theorem hand {s : Session} (rep : Represents s s.store.world P) {q : Holder} {k : Shelf} (legal : (form q).PassesTo k) :
    ∃ a' s' P', s.hand a q k = .ok (a', s') ∧ Represents s' s'.store.world P' ∧
      Handed (Function.update form q k) a' p P' := by
  unfold Session.hand
  cases handing : Op.handing (a.place s.nexts q) k with
  | none =>
    refine ⟨a, s, P, rfl, rep, hd.stay fun live => ?_⟩
    rw [hd.find_of_live live] at handing
    rcases hd.formed q live with there | home
    · have passes := legal (a.find q).slot
      rw [← there] at passes
      exact absurd handing passes
    · exact .inr home
  | some op =>
    obtain ⟨s', step, rep'⟩ := step_represents rep op
    rcases Plain.step_handing handing .words P with ⟨dead, refused⟩ | ⟨o, P', there, passes, passed⟩
    · rw [refused] at step rep'
      refine ⟨a, s', P, by simp only [step, bind, Except.bind], rep', hd.stay fun live => ?_⟩
      rw [hd.find_of_live live, hd.live_of_find (hd.matched.made live)] at dead
      exact absurd dead live
    · rw [passes] at step rep'
      refine ⟨_, s', P', by simp only [step, bind, Except.bind]; rfl, rep', ?_⟩
      by_cases made : q.slot < a.next q.shelf
      · have place : a.place s.nexts q = a.find q := if_pos made
        rw [place] at there passed
        exact hd.pass ((hd.live_of_find made).symm.trans there) passed
      · -- what was not made has nothing to hand on
        have unmade : P.object? (a.place s.nexts q) = none := by
          rw [Names.place, if_neg made]
          exact Plain.object?_unmade (Nat.le_of_eq (rep.next q.shelf).symm)
        rw [unmade] at there
        cases there

/-- An operation that is not about values does to both what it does. -/
theorem of_kept {p' P' : Plain} (kept : ∀ k : Shelf, k.plain.of p' = k.plain.of p)
    (kept' : ∀ k : Shelf, k.plain.of P' = k.plain.of P) (deeds : P'.deeds = p'.deeds)
    (noted : P'.settings = p'.settings ∧ P'.mark = p'.mark) : Handed form a p' P' := by
  have same (q : Holder) : p'.object? q = p.object? q := by rw [Plain.object?, kept, Plain.object?]
  have same' (r : Holder) : P'.object? r = P.object? r := by rw [Plain.object?, kept', Plain.object?]
  refine ⟨hd.matched.of_kept kept kept', fun r => ?_, fun q => ?_, deeds, noted⟩
  · rw [same']
    exact hd.covered r
  · rw [same]
    exact hd.formed q

/-- What is asked about settings and ledger is answered the same. -/
theorem whole {s : Session} (rep : Represents s s.store.world P) {op : Op} (whole : ¬ op.Local) :
    ∃ s' P', s.stepBy a op = .ok ((p.step .words op).1, a, s') ∧ Represents s' s'.store.world P' ∧
      Handed form a (p.step .words op).2 P' := by
  obtain ⟨s', step, rep'⟩ := step_represents rep op
  have asked (untouched : op.at a s.nexts = op) (same : (P.step .words op).1 = (p.step .words op).1)
      (quiet : a.hear op (p.step .words op).1 = ((p.step .words op).1, a)) :
      s.stepBy a op = .ok ((p.step .words op).1, a, s') := by
    simp only [Session.stepBy, untouched, step, same, quiet, bind, Except.bind]
  refine ⟨s', _, ?_, rep', ?_⟩
  · cases op with
    | ledgerSinceMark =>
      refine asked rfl ?_ rfl
      show Answer.ledger ((Ledger.ofDeeds P.deeds).since P.mark) = .ledger ((Ledger.ofDeeds p.deeds).since p.mark)
      rw [hd.deeds, hd.noted.2]
    | configure _ | resetLedger | markLedger => exact asked rfl rfl rfl
    | _ => exact absurd trivial whole
  · cases op with
    | configure settings =>
      exact hd.of_kept (fun k => Shelf.plain_of_noted ..) (fun k => Shelf.plain_of_noted ..) hd.deeds ⟨rfl, hd.noted.2⟩
    | resetLedger => exact hd.of_kept (fun k => Shelf.plain_of_deeds ..) (fun k => Shelf.plain_of_deeds ..) rfl hd.noted
    | markLedger =>
      refine hd.of_kept (fun k => Shelf.plain_of_noted ..) (fun k => Shelf.plain_of_noted ..) hd.deeds ⟨hd.noted.1, ?_⟩
      exact congrArg Ledger.ofDeeds hd.deeds
    | ledgerSinceMark => exact hd
    | _ => exact absurd trivial whole

/-- What an operation has done to both. -/
theorem stepped {op : Op} {a' : Names} {p' P' : Plain}
    (st : Stepped (fun _ => True) a (a.Touches op p) p P a' p' P') : Handed form a' p' P' := by
  constructor
  case matched => exact st.matched
  case covered =>
    intro r there
    by_cases old : r.slot < (r.shelf.plain.of P).next
    · by_cases touched : a.Touches op p r
      · obtain ⟨q, -, live, same⟩ := touched
        obtain ⟨made, kept⟩ := st.found (hd.matched.made live)
        exact ⟨q, made, kept.trans same⟩
      · rw [st.frame r old touched] at there
        obtain ⟨q, made, same⟩ := hd.covered r there
        obtain ⟨made', kept⟩ := st.found made
        exact ⟨q, made', kept.trans same⟩
    · obtain ⟨q, -, made, same⟩ := st.named (Plain.made_of_object? there) (by omega)
      exact ⟨q, made, same⟩
  case formed =>
    intro q live
    rcases st.old_or_new (st.matched.made live) with made | ⟨-, new⟩
    · obtain ⟨made', kept⟩ := st.found made
      -- a slot that was empty is not filled again: it cannot have been touched
      have before : p.object? q ≠ none := by
        intro dead
        have empty : P.object? (a.find q) = none := (hd.live_of_find made).trans dead
        have apart : ¬ a.Touches op p (a.find q) := by
          rintro ⟨q', -, live', same⟩
          rw [← hd.live_of_find (hd.matched.made live'), same] at live'
          exact live' empty
        rw [← st.matched.same q trivial made', kept, st.frame _ (hd.matched.inside q made) apart] at live
        exact live empty
      rw [kept]
      exact hd.formed q before
    · rw [new]
      exact .inr rfl
  case deeds =>
    obtain ⟨ds, here, there⟩ := st.deeds
    rw [there, here, hd.deeds]
  case noted =>
    obtain ⟨settings, mark⟩ := st.noted
    obtain ⟨settings', mark'⟩ := st.noted'
    exact ⟨settings'.trans (hd.noted.1.trans settings.symm), mark'.trans (hd.noted.2.trans mark.symm)⟩

/-- An operation is answered as the consumer's own values would answer it. -/
theorem step {s : Session} (rep : Represents s s.store.world P) {op : Op}
    (ready : ∀ q ∈ op.names, form q = q.shelf ∨ op.EndsOwner ∧ (form q = .texts ∨ form q = .owned)) :
    ∃ a' s' P', s.stepBy a op = .ok ((p.step .words op).1, a', s') ∧ Represents s' s'.store.world P' ∧
      Handed form a' (p.step .words op).2 P' := by
  by_cases isLocal : op.Local
  · have there : a.Ready op p := by
      intro q mem live
      rcases hd.formed q live with here | home
      · rw [here]
        exact ready q mem
      · exact .inl home
    obtain ⟨a', s', P', step, rep', st⟩ := hd.matched.stepBy rep isLocal (fun _ _ => trivial) there
    exact ⟨a', s', P', step, rep', hd.stepped st⟩
  · obtain ⟨s', P', step, rep', hd'⟩ := hd.whole rep isLocal
    exact ⟨a, s', P', step, rep', hd'⟩

end Handed

/-- What a relay is answered, and what it leaves behind. -/
theorem relay_handed (turns : List Relay) : ∀ {s : Session} {form : Holder → Shelf} {a : Names} {p P : Plain},
    Represents s s.store.world P → Handed form a p P → Relay.Ready form turns →
      ∃ a' s' P', s.relay a turns = .ok ((p.run .words (Relay.ops turns)).1, a', s') ∧
        Represents s' s'.store.world P' ∧
          Handed (Relay.forms form turns) a' (p.run .words (Relay.ops turns)).2 P' := by
  induction turns with
  | nil => intro s form a p P rep hd _; exact ⟨a, s, P, rfl, rep, hd⟩
  | cons turn turns ih =>
    intro s form a p P rep hd ready
    cases turn with
    | does op =>
      obtain ⟨now, later⟩ := ready
      obtain ⟨a₁, s₁, P₁, step, rep₁, hd₁⟩ := hd.step rep now
      obtain ⟨a', s', P', relay, rep', hd'⟩ := ih rep₁ hd₁ later
      refine ⟨a', s', P', ?_, rep', hd'⟩
      simp only [Session.relay, step, relay, bind, Except.bind]
      rfl
    | hand q k =>
      obtain ⟨now, later⟩ := ready
      obtain ⟨a₁, s₁, P₁, hand, rep₁, hd₁⟩ := hd.hand rep now
      obtain ⟨a', s', P', relay, rep', hd'⟩ := ih rep₁ hd₁ later
      refine ⟨a', s', P', ?_, rep', hd'⟩
      simp only [Session.relay, hand, relay, bind, Except.bind]
      rfl

/-! ## Hand-offs -/

/-- Two sessions have the same values, if in other slots, and have counted the same. -/
structure Session.Mirrors (s' : Session) (names : Names) (s : Session) : Prop where
  contents : ∀ q o, s.object? q = some o → s'.object? (names.find q) = some o
  covered : ∀ r o, s'.object? r = some o → ∃ q, s.object? q = some o ∧ names.find q = r
  single : ∀ q q', s.object? q ≠ none → s.object? q' ≠ none → names.find q = names.find q' → q = q'
  ledger : s'.store.ledger = s.store.ledger

namespace Handed

variable {form : Holder → Shelf} {a : Names} {p P : Plain} {s s' : Session} (hd : Handed form a p P)
  (rep : Represents s s.store.world p) (rep' : Represents s' s'.store.world P)

include hd rep rep'

theorem mirrors : s'.Mirrors a s := by
  constructor
  case contents =>
    intro q o there
    rw [rep.object?_eq] at there
    rw [rep'.object?_eq, hd.live_of_find (hd.matched.made (by simp [there])), there]
  case covered =>
    intro r o there
    rw [rep'.object?_eq] at there
    obtain ⟨q, made, same⟩ := hd.covered r (by simp [there])
    exact ⟨q, by rw [rep.object?_eq, ← hd.live_of_find made, same, there], same⟩
  case single =>
    intro q q' live live' same
    rw [rep.object?_eq] at live live'
    exact hd.matched.single q q' trivial trivial live live' same
  case ledger =>
    have here : s.store.ledger = .ofDeeds p.deeds := rep.ledger
    have there : s'.store.ledger = .ofDeeds P.deeds := rep'.ledger
    rw [here, there, hd.deeds]

section
variable (settled : ∀ q, (form q).owns = q.shelf.owns)

include settled

omit rep rep' in
/-- What has an owner still has one, and what has none has none. -/
theorem owns_find {q : Holder} (live : p.object? q ≠ none) : (a.find q).shelf.owns = q.shelf.owns := by
  rcases hd.formed q live with there | home
  · rw [there, settled]
  · rw [home]

/-- The same owners are left to be dropped. -/
theorem owners_perm : (s.owners.map a.find).Perm s'.owners := by
  refine (List.perm_ext_iff_of_nodup ?_ s'.nodup_owners).mpr fun r => ?_
  · refine List.Nodup.map_on (fun q mem q' mem' same => ?_) s.nodup_owners
    exact hd.matched.single q q' trivial trivial ((Session.mem_owners rep q).mp mem).2
      ((Session.mem_owners rep q').mp mem').2 same
  · rw [List.mem_map, Session.mem_owners rep']
    constructor
    · rintro ⟨q, mem, rfl⟩
      obtain ⟨owns, live⟩ := (Session.mem_owners rep q).mp mem
      rw [hd.owns_find settled live, hd.live_of_find (hd.matched.made live)]
      exact ⟨owns, live⟩
    · rintro ⟨owns, there⟩
      obtain ⟨q, made, rfl⟩ := hd.covered r there
      rw [hd.live_of_find made] at there
      rw [hd.owns_find settled there] at owns
      exact ⟨q, (Session.mem_owners rep q).mpr ⟨owns, there⟩, rfl⟩

/-- At the end, too, the sessions have the same values and have counted the same. -/
theorem closed : ∃ z z', s.close = .ok z ∧ s'.close = .ok z' ∧ z'.Mirrors a z := by
  obtain ⟨z, close, ledger, objects, -⟩ := Session.close_ends rep
  obtain ⟨z', close', ledger', objects', -⟩ := Session.close_ends rep'
  have mirrors := hd.mirrors rep rep'
  have left {q : Holder} {o : Object} (there : z.object? q = some o) :
      ¬ q.shelf.owns ∧ s.object? q = some o := by
    rw [objects] at there
    split at there
    · cases there
    · exact ⟨‹_›, there⟩
  have owns {q : Holder} {o : Object} (there : s.object? q = some o) : (a.find q).shelf.owns = q.shelf.owns := by
    refine hd.owns_find settled ?_
    rw [← rep.object?_eq, there]
    exact Option.some_ne_none o
  refine ⟨z, z', close, close', ?_⟩
  constructor
  case contents =>
    intro q o there
    obtain ⟨raw, before⟩ := left there
    rw [objects', if_neg (by rwa [owns before])]
    exact mirrors.contents q o before
  case covered =>
    intro r o there
    rw [objects'] at there
    split at there
    · cases there
    · rename_i raw
      obtain ⟨q, before, rfl⟩ := mirrors.covered r o there
      rw [owns before] at raw
      exact ⟨q, by rw [objects, if_neg raw, before], rfl⟩
  case single =>
    intro q q' live live' same
    obtain ⟨o, there⟩ := Option.ne_none_iff_exists'.mp live
    obtain ⟨o', there'⟩ := Option.ne_none_iff_exists'.mp live'
    exact mirrors.single q q' (by simp [(left there).2]) (by simp [(left there').2]) same
  case ledger =>
    -- the same owners end, but in the order of other slots
    rw [ledger, ledger', hd.deeds]
    refine Ledger.ofDeeds_perm (.append_left _ ?_)
    have same : s.owners.filterMap (fun q => (p.object? q).map Object.ended) =
        (s.owners.map a.find).filterMap fun r => (P.object? r).map Object.ended := by
      rw [List.filterMap_map]
      refine List.filterMap_congr fun q mem => ?_
      rw [Function.comp, hd.live_of_find (hd.matched.made ((Session.mem_owners rep q).mp mem).2)]
    rw [same]
    exact ((hd.owners_perm rep rep' settled).filterMap _).symm

end

end Handed

/-- Before anything has happened, nothing has been handed on. -/
theorem Handed.start {s : Session} {p : Plain} (rep : Represents s s.store.world p) :
    Handed Holder.shelf (.own s) p p where
  matched := Names.own_match rep fun _ _ => trivial
  covered r there := by
    have made := Plain.made_of_object? there
    rw [← rep.next] at made
    exact ⟨r, made, rfl⟩
  formed _ _ := .inr rfl
  deeds := rfl
  noted := ⟨rfl, rfl⟩

/-- Owners let go of their handles, and others are made from them, anywhere in a run and any number of times. The
    run is answered as it is without that, each text and vector is what it is without, and so is the ledger, at any
    time, and after the end if what had an owner has one. What is let go of stays as it is whatever else is dropped. -/
theorem hand_offs_invisible (a : Allocator) (settings : Settings) (turns : List Relay)
    (ready : Relay.Ready Holder.shelf turns) : ∃ answers s names s',
      (Session.startOn (.fresh a settings)).run (Relay.ops turns) = .ok (answers, s) ∧
      (Session.startOn (.fresh a settings)).relay (.own (.startOn (.fresh a settings))) turns =
        .ok (answers, names, s') ∧
      s'.Mirrors names s ∧
      (∀ q, s.object? q ≠ none →
        (names.find q).shelf = Relay.forms Holder.shelf turns q ∨ (names.find q).shelf = q.shelf) ∧
      (s.SparesRaw ∧ s'.SparesRaw) ∧
      ((∀ q, (Relay.forms Holder.shelf turns q).owns = q.shelf.owns) →
        ∃ z z', s.close = .ok z ∧ s'.close = .ok z' ∧ z'.Mirrors names z) := by
  obtain ⟨s, run, rep⟩ := start_represents a settings (Relay.ops turns)
  have rep₀ := represents_start a settings
  obtain ⟨names, s', P, relay, rep', hd⟩ := relay_handed turns rep₀ (.start rep₀) ready
  refine ⟨_, s, names, s', run, relay, hd.mirrors rep rep', fun q live => ?_,
    ⟨Session.sparesRaw rep, Session.sparesRaw rep'⟩, hd.closed rep rep'⟩
  rw [rep.object?_eq] at live
  exact hd.formed q live

/-- For example, a text goes from one kind of owner to the other while its handle is nobody's for a time, and a
    vector gets a new owner. -/
theorem hand_offs_invisible_other_owner : ∃ answers s names s' z z',
    (Session.startOn (.fresh .growing .initial)).run [.textFrom "ab", .newVector .text, .push 0 ⟨.text, "c"⟩,
      .pop 0, .dropText 0] = .ok (answers, s) ∧
    (Session.startOn (.fresh .growing .initial)).relay (.own (.startOn (.fresh .growing .initial)))
      [.does (.textFrom "ab"), .does (.newVector .text), .hand ⟨.texts, 0⟩ .released, .does (.push 0 ⟨.text, "c"⟩),
        .hand ⟨.texts, 0⟩ .owned, .hand ⟨.vectors, 0⟩ .releasedVectors, .hand ⟨.vectors, 0⟩ .vectors, .does (.pop 0),
        .does (.dropText 0)] = .ok (answers, names, s') ∧
    s.close = .ok z ∧ s'.close = .ok z' ∧ z'.store.ledger = z.store.ledger := by
  obtain ⟨answers, s, names, s', run, relay, -, -, -, ends⟩ := hand_offs_invisible .growing .initial
    [.does (.textFrom "ab"), .does (.newVector .text), .hand ⟨.texts, 0⟩ .released, .does (.push 0 ⟨.text, "c"⟩),
      .hand ⟨.texts, 0⟩ .owned, .hand ⟨.vectors, 0⟩ .releasedVectors, .hand ⟨.vectors, 0⟩ .vectors, .does (.pop 0),
      .does (.dropText 0)]
    (by simp [Relay.Ready, Op.names, Op.EndsOwner, Shelf.PassesTo, Op.handing])
  obtain ⟨z, z', close, close', mirrors⟩ := ends fun q => by
    by_cases vector : q = ⟨.vectors, 0⟩
    · simp [Relay.forms, vector]
    · by_cases text : q = ⟨.texts, 0⟩ <;> simp [Relay.forms, vector, text, Shelf.owns]
  exact ⟨answers, s, names, s', z, z', run, relay, close, close', mirrors.ledger⟩

end Custody
