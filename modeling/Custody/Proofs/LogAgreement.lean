/-
  Custody.Proofs.LogAgreement — the log and the ledger tell the same story.

  While every call is traced the log hears all that is told (`Figure.records_heard`), so along a run the
  figures of log and ledger move apart by no more than the asides of its operations (`run_accounts`). Each
  figure is a count of certain records (`Figure.records_eq_shown`) and a counter of the ledger
  (`Ledger.record_events`): that is `LogAgrees`. It says of each counter which records it counts, and that
  owners say of themselves what the boundary's calls say of them. So it is after every operation, and once
  more after the end of the session (`log_agrees_at_end`). Of the asides, the texts that pops found are as many
  as there were pops of vectors that held one (`Session.found_along`).
-/
import Mathlib.Data.List.Induction
import Custody.Proofs.Ending
import Custody.Proofs.Pops

namespace Custody

open Stage

/-! ## Figures over a run -/

namespace Figure

variable (F : Figure)

theorem ofRecord_heard {settings : Settings} (traced : settings.traceCalls = true) (r : LogRecord) :
    ∃ r', r.heard settings = some r' ∧ F.ofRecord r' = F.ofRecord r := by
  cases r with
  | call e => exact ⟨.call e, by simp [LogRecord.heard, traced], rfl⟩
  | allocated e v capacity => exact ⟨.allocated e v settings.capacityHint, rfl, by cases F <;> rfl⟩
  | _ => exact ⟨_, rfl, rfl⟩

/-- While calls are traced nothing is lost on the log. -/
theorem records_heard {settings : Settings} (traced : settings.traceCalls = true) (t : Talk) :
    F.records (t.heard settings) = F.records t.records := by
  obtain ⟨events, rs⟩ := t
  show F.records (rs.filterMap (LogRecord.heard settings)) = F.records rs
  induction rs with
  | nil => rfl
  | cons r rs ih =>
    obtain ⟨r', heard, same⟩ := F.ofRecord_heard traced r
    rw [List.filterMap_cons_some heard]
    simp only [records, List.map_cons, List.sum_cons, same] at ih ⊢
    rw [ih]

end Figure

/-- What is aside of operations, by their answers. -/
def Op.asidesAlong (ops : List Op) (answers : List Answer) : Asides := .total (List.zipWith Op.asides ops answers)

theorem Op.asidesAlong_none {ops : List Op} (nothing : ∀ op ∈ ops, ∀ y, op.asides y = .none) (answers : List Answer) :
    Op.asidesAlong ops answers = .none := by
  induction ops generalizing answers with
  | nil => rfl
  | cons op ops ih =>
    cases answers with
    | nil => rfl
    | cons y answers =>
      show (op.asides y).add (Op.asidesAlong ops answers) = .none
      rw [nothing op List.mem_cons_self, ih fun op' mem => nothing op' (List.mem_cons_of_mem op mem)]
      rfl

/-- Over a run, pops find the texts that there are for them. -/
theorem Session.found_along (ops : List Op) : ∀ {s s' : Session} {p : Plain} {answers : List Answer},
    Represents s s.store.world p → s.run ops = .ok (answers, s') →
      (Op.asidesAlong ops answers).found = s.takesAlong ops := by
  induction ops with
  | nil => intro s s' p answers _ _; rfl
  | cons op ops ih =>
    intro s s' p answers rep run
    obtain ⟨y, s₁, answers, step, rest, rfl⟩ := Session.run_cons run
    obtain ⟨s₂, step', rep'⟩ := step_represents rep op
    obtain ⟨rfl, rfl⟩ := Prod.mk.inj (Except.ok.inj (step'.symm.trans step))
    have sum : (Op.asidesAlong (op :: ops) ((p.step .words op).1 :: answers)).found =
        (op.asides (p.step .words op).1).found + (Op.asidesAlong ops answers).found := rfl
    rw [sum, rep.found step, ih rep' rest, Session.takesAlong, step]

namespace Session

/-- From `s` to `s'` calls were traced, and the figures of ledger and log moved apart by those asides. -/
def Accounts (x : Asides) (s s' : Session) : Prop :=
  s'.store.settings.traceCalls = true ∧ ∃ es rs, s'.store.ledger = es.foldl .record s.store.ledger ∧
    s'.store.log.toList = s.store.log.toList ++ rs ∧ ∀ F : Figure, (F.events es : Int) - F.records rs = F.due x

theorem Accounts.trans {x y : Asides} {s s' s'' : Session} (first : Accounts x s s') (next : Accounts y s' s'') :
    Accounts (x + y) s s'' := by
  obtain ⟨-, es, rs, ledger, log, gap⟩ := first
  obtain ⟨traced, es', rs', ledger', log', gap'⟩ := next
  refine ⟨traced, es ++ es', rs ++ rs', ?_, ?_, fun F => ?_⟩
  · rw [ledger', ledger, List.foldl_append]
  · rw [log', log, List.append_assoc]
  · have := gap F
    have := gap' F
    rw [F.events_append, F.records_append, F.due_add]
    omega

theorem step_accounts {s s' : Session} {op : Op} {y : Answer} (traced : s.store.settings.traceCalls = true)
    (keeps : ∀ settings, op = .configure settings → settings.traceCalls = true) (notReset : op ≠ .resetLedger)
    (run : s.step op = .ok (y, s')) : Accounts (op.asides y) s s' := by
  by_cases set : ∃ settings, op = .configure settings
  · obtain ⟨settings, rfl⟩ := set
    cases run
    refine ⟨keeps settings rfl, [], [.configured settings], rfl, by simp, fun F => ?_⟩
    cases F <;> rfl
  · have notSet (settings : Settings) : op ≠ .configure settings := fun same => set ⟨settings, same⟩
    rcases s.step_owes op notSet notReset with ⟨fault, fails⟩ | ⟨z, t, u, runs, told, owes⟩
    · exact absurd ((fails s.store.settings s.store.log).symm.trans run) (by simp)
    · have same := (runs s.store.settings s.store.log).symm.trans run
      obtain ⟨rfl, rfl⟩ := Prod.mk.inj (Except.ok.inj same)
      refine ⟨traced, u.events, u.heard s.store.settings, told, ?_, fun F => ?_⟩
      · show (s.store.log ++ (u.heard s.store.settings).toArray).toList = _
        simp
      · rw [F.records_heard traced]
        exact owes F

theorem run_accounts (ops : List Op) : ∀ {s s' : Session} {answers : List Answer},
    s.store.settings.traceCalls = true → (∀ settings, .configure settings ∈ ops → settings.traceCalls = true) →
      .resetLedger ∉ ops → s.run ops = .ok (answers, s') → Accounts (Op.asidesAlong ops answers) s s' := by
  induction ops with
  | nil =>
    intro s s' answers traced _ _ run
    cases run
    exact ⟨traced, [], [], rfl, by simp, fun F => by simp [Op.asidesAlong, Asides.total]; rfl⟩
  | cons op ops ih =>
    intro s s' answers traced keeps noReset run
    obtain ⟨y, s₁, answers, step, rest, rfl⟩ := run_cons run
    have first := step_accounts traced (fun settings same => keeps settings (same ▸ List.mem_cons_self))
      (fun same => noReset (same ▸ List.mem_cons_self)) step
    have next := ih first.1 (fun settings mem => keeps settings (List.mem_cons_of_mem op mem))
      (fun mem => noReset (List.mem_cons_of_mem op mem)) rest
    exact first.trans next

end Session

/-! ## Reading the figures -/

namespace LogRecord

/-- A call that makes a text of nothing or of a view. -/
def makesText : LogRecord → Bool
  | .call (.text .new) | .call (.text .ofView) => true
  | _ => false

/-- A call of this operation on a vector, of whatever element type. -/
def callsVector (op : VectorOp) : LogRecord → Bool
  | .call (.vector _ op') => op' == op
  | _ => false

def isAllocated : LogRecord → Bool
  | .allocated .. => true
  | _ => false

def isVectorGiven : LogRecord → Bool
  | .vectorGiven _ => true
  | _ => false

/-- An owner of a text gives it back. -/
def freesText : LogRecord → Bool
  | .freeing type _ => type == Element.textName
  | _ => false

/-- An owner of a text lets go of it. -/
def releasesText : LogRecord → Bool
  | .released type _ => type == Element.textName
  | _ => false

/-- How many texts were in a vector that the store gave up. -/
def textsDropped : LogRecord → Nat
  | .dropped .text _ count => count.toNat
  | _ => 0

end LogRecord

namespace Figure

/-- What a log shows of a figure. -/
def shown : Figure → List LogRecord → Nat
  | freesCalled, rs => rs.count (.call (.text .free))
  | freesSaid, rs => rs.countP LogRecord.freesText
  | movesCalled, rs => rs.count (.call (.vector .text .push))
  | movesSaid, rs => rs.countP LogRecord.releasesText
  | allocsCalled, rs => rs.countP LogRecord.makesText
  | popsCalled, rs => rs.count (.call (.vector .text .pop))
  | vectorsCalled, rs => rs.countP (LogRecord.callsVector .new)
  | vectorsSaid, rs => rs.countP LogRecord.isAllocated
  | endsCalled, rs => rs.countP (LogRecord.callsVector .drop)
  | endsSaid, rs => rs.countP LogRecord.isVectorGiven
  | dropped, rs => (rs.map LogRecord.textsDropped).sum

theorem shown_singleton (F : Figure) (r : LogRecord) : F.shown [r] = F.ofRecord r := by
  cases F with
  | freesSaid => cases r <;> simp [shown, ofRecord, LogRecord.freesText]
  | movesSaid => cases r <;> simp [shown, ofRecord, LogRecord.releasesText]
  | _ => rcases r with _ | ((_ | _) | ⟨_ | _, _ | _⟩) | _ | ⟨_ | _, _, _⟩ | _ | _ | _ | _ <;> rfl

theorem shown_cons (F : Figure) (r : LogRecord) (rs : List LogRecord) :
    F.shown (r :: rs) = F.ofRecord r + F.shown rs := by
  rw [← shown_singleton]
  cases F <;> simp [shown, List.count_cons, List.countP_cons, Nat.add_comm]

theorem events_congr {F G : Figure} {es : List Event} (same : ∀ e, F.ofEvent e = G.ofEvent e) :
    F.events es = G.events es := by
  rw [events, funext same, events]

theorem events_popsCalled (es : List Event) : popsCalled.events es = 0 := by
  have none : popsCalled.ofEvent = fun _ => 0 := by
    funext e
    cases e <;> rfl
  simp [events, none]

theorem records_eq_shown (F : Figure) (rs : List LogRecord) : F.records rs = F.shown rs := by
  induction rs with
  | nil => cases F <;> rfl
  | cons r rs ih =>
    rw [shown_cons, ← ih]
    rfl

end Figure

/-- A ledger shows the figures of the events that it counted, as words. -/
theorem Ledger.record_events (es : List Event) : es.foldl record empty =
    { textAllocs := UInt64.ofNat (Figure.allocsCalled.events es)
      textFrees := UInt64.ofNat (Figure.freesCalled.events es)
      textTransfers := UInt64.ofNat (Figure.movesCalled.events es)
      vectorAllocs := UInt64.ofNat (Figure.vectorsCalled.events es)
      vectorFrees := UInt64.ofNat (Figure.endsCalled.events es)
      elementsDropped := UInt64.ofNat (Figure.dropped.events es) } := by
  induction es using List.reverseRecOn with
  | nil => rfl
  | append_singleton es e ih =>
    rw [List.foldl_append, ih]
    cases e <;> simp [record, UInt64.ofNat_add, Figure.events, Figure.ofEvent]

/-! ## One story -/

/-- A word that has counted to that number, and shows it as long as it is below 2^64. -/
def Counts (c : UInt64) (n : Nat) : Prop := c.toNat = n % 2 ^ 64

theorem counts_ofNat (n : Nat) : Counts (.ofNat n) n := UInt64.toNat_ofNat'

/-- What a ledger and a log that both began empty say of one another, where the asides `x` are those of the
    operations so far. -/
structure LogAgrees (l : Ledger) (rs : List LogRecord) (x : Asides) : Prop where
  textFrees : Counts l.textFrees (rs.count (.call (.text .free)))
  /-- Owners speak of all texts given back but those given back past any owner. -/
  freeing : rs.count (.call (.text .free)) = rs.countP LogRecord.freesText + x.freed
  textTransfers : Counts l.textTransfers (rs.count (.call (.vector .text .push)))
  /-- Owners let go of texts for a vector, but where a push passes them by, and for their consumer. -/
  released : rs.countP LogRecord.releasesText + x.moved = rs.count (.call (.vector .text .push)) + x.letGo
  vectorAllocs : Counts l.vectorAllocs (rs.countP (LogRecord.callsVector .new))
  allocated : rs.countP (LogRecord.callsVector .new) = rs.countP LogRecord.isAllocated
  vectorFrees : Counts l.vectorFrees (rs.countP (LogRecord.callsVector .drop))
  given : rs.countP (LogRecord.callsVector .drop) = rs.countP LogRecord.isVectorGiven
  /-- Texts are made, or are found by a pop. -/
  textAllocs : Counts l.textAllocs (rs.countP LogRecord.makesText + x.found)
  pops : rs.count (.call (.vector .text .pop)) = x.pops
  elementsDropped : Counts l.elementsDropped (rs.map LogRecord.textsDropped).sum

namespace Session

theorem Accounts.agrees {a : Allocator} {settings : Settings} {s : Session} {x : Asides}
    (accounts : Accounts x (startOn (.fresh a settings)) s) : LogAgrees s.store.ledger s.store.log.toList x := by
  obtain ⟨-, es, rs, ledger, log, gap⟩ := accounts
  have ledger : s.store.ledger = es.foldl .record .empty := ledger
  have log : s.store.log.toList = rs := log
  have shows (F : Figure) : (F.events es : Int) = F.shown rs + F.due x := by
    have := gap F
    rw [F.records_eq_shown] at this
    omega
  -- figures that the asides have no part in
  have agree {F : Figure} (nothing : F.due x = 0) : F.events es = F.shown rs := by
    have := shows F
    omega
  have allocs : Figure.allocsCalled.events es = rs.countP LogRecord.makesText + x.found := by
    have : _ = ((rs.countP LogRecord.makesText : Nat) : Int) + (x.found : Nat) := shows .allocsCalled
    omega
  have frees : Figure.freesCalled.events es = rs.count (.call (.text .free)) := agree rfl
  have moves : Figure.movesCalled.events es = rs.count (.call (.vector .text .push)) := agree rfl
  have vectors : Figure.vectorsCalled.events es = rs.countP (LogRecord.callsVector .new) := agree rfl
  have ends : Figure.endsCalled.events es = rs.countP (LogRecord.callsVector .drop) := agree rfl
  rw [ledger, log, Ledger.record_events, allocs, frees, moves, vectors, ends, agree (F := .dropped) rfl]
  refine ⟨counts_ofNat _, ?_, counts_ofNat _, ?_, counts_ofNat _, ?_, counts_ofNat _, ?_, counts_ofNat _, ?_,
    counts_ofNat _⟩
  · have said : _ = ((rs.countP LogRecord.freesText : Nat) : Int) + (x.freed : Nat) := shows .freesSaid
    rw [Figure.events_congr (G := .freesCalled) (fun e => by cases e <;> rfl), frees] at said
    omega
  · have said : _ = ((rs.countP LogRecord.releasesText : Nat) : Int) + ((x.moved : Int) - x.letGo) := shows .movesSaid
    rw [Figure.events_congr (G := .movesCalled) (fun e => by cases e <;> rfl), moves] at said
    omega
  · have said : Figure.vectorsSaid.events es = rs.countP LogRecord.isAllocated := agree rfl
    rw [← said, ← vectors]
    exact Figure.events_congr fun e => by cases e <;> rfl
  · have said : Figure.endsSaid.events es = rs.countP LogRecord.isVectorGiven := agree rfl
    rw [← said, ← ends]
    exact Figure.events_congr fun e => by cases e <;> rfl
  · have called : _ = ((rs.count (.call (.vector .text .pop)) : Nat) : Int) + -(x.pops : Int) := shows .popsCalled
    rw [Figure.events_popsCalled] at called
    omega

end Session

/-- The log and the ledger tell the same story, after every operation of every run that begins with both
    empty, traces all calls and never empties the ledger. Texts are found by the pops of vectors that hold one. -/
theorem log_agrees_with_ledger (a : Allocator) (settings : Settings) (ops : List Op)
    (traced : settings.traceCalls = true) (keeps : ∀ settings, .configure settings ∈ ops → settings.traceCalls = true)
    (noReset : .resetLedger ∉ ops) :
    ∃ answers s, (Session.startOn (.fresh a settings)).run ops = .ok (answers, s) ∧
      LogAgrees s.store.ledger s.store.log.toList (Op.asidesAlong ops answers) ∧
      (Op.asidesAlong ops answers).found = (Session.startOn (.fresh a settings)).takesAlong ops := by
  obtain ⟨s, run, -⟩ := start_represents a settings ops
  exact ⟨_, s, run, (Session.run_accounts ops traced keeps noReset run).agrees,
    Session.found_along ops (represents_start a settings) run⟩

/-- For example, of two texts given back an owner speaks of one: its consumer let go of the other, and gave
    it back without an owner. -/
theorem log_agrees_with_ledger_past_owner :
    ∃ answers s, (Session.startOn (.fresh .growing ⟨true, 0⟩)).run
        [.newText, .textFrom "ab", .releaseText 0, .dropText 1, .freeReleased 0] = .ok (answers, s) ∧
      s.store.ledger.textFrees.toNat = 2 ∧ s.store.log.toList.countP LogRecord.freesText = 1 := by
  obtain ⟨answers, s, run, agrees, -⟩ := log_agrees_with_ledger .growing ⟨true, 0⟩
    [.newText, .textFrom "ab", .releaseText 0, .dropText 1, .freeReleased 0] rfl (by simp) (by simp)
  cases run
  refine ⟨_, _, rfl, agrees.textFrees.trans (by decide), ?_⟩
  have freeing : 2 = _ + 1 := agrees.freeing
  exact (Nat.succ.inj freeing).symm

/-- And so they do after the end of the session, which has nothing aside of it. -/
theorem log_agrees_at_end (a : Allocator) (settings : Settings) (ops : List Op)
    (traced : settings.traceCalls = true) (keeps : ∀ settings, .configure settings ∈ ops → settings.traceCalls = true)
    (noReset : .resetLedger ∉ ops) :
    ∃ answers s s', (Session.startOn (.fresh a settings)).run ops = .ok (answers, s) ∧ s.close = .ok s' ∧
      LogAgrees s'.store.ledger s'.store.log.toList (Op.asidesAlong ops answers) := by
  obtain ⟨s, run, rep⟩ := start_represents a settings ops
  obtain ⟨dropped, s', ends, close⟩ := Session.closes rep
  have before := Session.run_accounts ops traced keeps noReset run
  have after := Session.run_accounts s.ending before.1 (by simp [Session.ending]) (by simp [Session.ending]) ends
  have nothing : ∀ op ∈ s.ending, ∀ y, op.asides y = .none := by
    intro op mem y
    simp only [Session.ending, List.mem_append, List.mem_map] at mem
    obtain (⟨_, -, rfl⟩ | ⟨_, -, rfl⟩) | ⟨_, -, rfl⟩ := mem <;> rfl
  rw [Op.asidesAlong_none nothing] at after
  exact ⟨_, s, _, run, close, (before.trans after).agrees⟩

end Custody
