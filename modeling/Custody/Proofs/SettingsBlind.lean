/-
  Custody.Proofs.SettingsBlind — settings change no result, only what the log hears.

  Runs of the same operations under any settings, set and changed wherever, show their consumer the same
  (`sights_eq`). They lead to the same session but for its settings and its log, and on the log is what the
  settings in force let through of the same words (`run_heard`), of calls those that were made while they
  were traced (`Exported.recorded`).
-/
import Custody.Proofs.Refinement
import Custody.Proofs.StepTalk
import Custody.Proofs.Tasks

namespace Custody

open Stage

namespace Op

def configures : Op → Bool
  | .configure _ => true
  | _ => false

/-- The operations without those that set the settings. -/
def kept (ops : List Op) : List Op := ops.filter fun op => !op.configures

/-- What the log hears of operations that begin under `settings`, where `words` are what each one that is
    kept has to say: nothing of a call while calls are not traced. -/
def heardAlong (settings : Settings) : List Op → List (List LogRecord) → List LogRecord
  | .configure next :: ops, words => .configured next :: heardAlong next ops words
  | _ :: ops, records :: words => records.filterMap (LogRecord.heard settings) ++ heardAlong settings ops words
  | _, _ => []

theorem kept_configure (settings : Settings) (ops : List Op) : kept (.configure settings :: ops) = kept ops := rfl

theorem kept_cons {op : Op} (other : op.configures = false) (ops : List Op) : kept (op :: ops) = op :: kept ops := by
  simp [kept, other]

theorem heardAlong_cons {op : Op} (other : op.configures = false) (settings : Settings) (ops : List Op)
    (records : List LogRecord) (words : List (List LogRecord)) : heardAlong settings (op :: ops) (records :: words) =
      records.filterMap (LogRecord.heard settings) ++ heardAlong settings ops words := by
  cases op with
  | configure _ => cases other
  | _ => rfl

end Op

/-! ## One operation -/

/-- An operation of its own fares alike under all settings: the same fault, or the same answer and the same
    session after the same words. -/
theorem Session.step_blind (s : Session) {op : Op} (other : op.configures = false) :
    (∃ fault, ∀ settings log, (under s settings log).step op = .error fault) ∨
      ∃ y s', ∃ records : List LogRecord, ∀ settings log, (under s settings log).step op =
        .ok (y, under s' settings (log ++ (records.filterMap (LogRecord.heard settings)).toArray)) := by
  by_cases reset : op = .resetLedger
  · subst reset
    refine .inr ⟨.done, { s with store := { s.store with ledger := .empty } }, [], fun settings log => ?_⟩
    rw [List.filterMap_nil, Array.append_empty]
    rfl
  · have notSet (settings : Settings) : op ≠ .configure settings := by
      rintro rfl
      cases other
    rcases s.step_owes op notSet reset with fails | ⟨y, s', t, run, -, -⟩
    · exact .inl fails
    · exact .inr ⟨y, s', t.records, run⟩

theorem Session.step_configure (s : Session) (settings τ : Settings) (log : Array LogRecord) :
    (under s settings log).step (.configure τ) = .ok (.settings τ, under s τ (log.push (.configured τ))) := rfl

/-! ## What a consumer sees -/

/-- What there is to see after an operation. -/
structure Sight where
  answer : Answer
  ledger : Ledger
  /-- What is in the slots. -/
  holds : Holder → Option Object

/-- What there is to see along a run, after each operation that is kept. -/
def Session.sights (s : Session) : List Op → Except Fault (List Sight)
  | [] => .ok []
  | op :: ops => do
    let (answer, s) ← s.step op
    let sights ← s.sights ops
    .ok (if op.configures then sights else ⟨answer, s.store.ledger, s.object?⟩ :: sights)

def Plain.sights (p : Plain) : List Op → List Sight
  | [] => []
  | op :: ops =>
    let (answer, p) := p.step .words op
    if op.configures then p.sights ops else ⟨answer, .ofDeeds p.deeds, p.object?⟩ :: p.sights ops

namespace Session

theorem object?_under (s : Session) (settings : Settings) (log : Array LogRecord) :
    (under s settings log).object? = s.object? := by
  funext ⟨k, i⟩
  cases k <;> rfl

/-- Settings make no difference to it. -/
theorem sights_kept (ops : List Op) : ∀ (s : Session) (settings settings' : Settings) (log log' : Array LogRecord),
    (under s settings log).sights ops = (under s settings' log').sights (Op.kept ops) := by
  induction ops with
  | nil => intro s settings settings' log log'; rfl
  | cons op ops ih =>
    intro s settings settings' log log'
    cases config : op.configures with
    | true =>
      cases op with
      | configure τ =>
        rw [Op.kept_configure, ← ih s τ settings' (log.push (.configured τ)) log']
        simp only [sights, step_configure, bind, Except.bind]
        cases (under s τ (log.push (.configured τ))).sights ops <;> rfl
      | _ => cases config
    | false =>
      rw [Op.kept_cons config]
      rcases s.step_blind config with ⟨fault, fails⟩ | ⟨y, s', records, run⟩
      · simp only [sights, fails, bind, Except.bind]
      · simp only [sights, run, bind, Except.bind, config, Bool.false_eq_true, if_false]
        rw [ih s' settings settings' _ (log' ++ (records.filterMap (LogRecord.heard settings')).toArray),
          object?_under, object?_under]
        rfl

end Session

theorem Represents.sights (ops : List Op) : ∀ {s : Session} {p : Plain}, Represents s s.store.world p →
    s.sights ops = .ok (p.sights ops) := by
  induction ops with
  | nil => intro s p _; rfl
  | cons op ops ih =>
    intro s p rep
    obtain ⟨s', step, rep'⟩ := step_represents rep op
    have ledger : s'.store.ledger = .ofDeeds (p.step .words op).2.deeds := rep'.ledger
    have holds : s'.object? = (p.step .words op).2.object? := funext rep'.object?_eq
    simp only [Session.sights, Plain.sights, step, bind, Except.bind, ih rep', ledger, holds]

/-- All there is to see of a run is settled by the operations that are kept. -/
theorem sights_eq (a : Allocator) (settings : Settings) (ops : List Op) :
    (Session.startOn (.fresh a settings)).sights ops = .ok (Plain.start.sights (Op.kept ops)) := by
  have blind := Session.sights_kept ops (.startOn (.fresh a settings)) settings .initial #[] #[]
  exact blind.trans ((represents_start a .initial).sights (Op.kept ops))

/-! ## What the log hears -/

/-- From `s` to `u` operations have those words to say, one list each, under whatever settings. -/
inductive Session.Tale : Session → List Op → List (List LogRecord) → Session → Prop
  | nil (s : Session) : Tale s [] [] s
  | cons {s s' u : Session} {op : Op} {ops : List Op} {y : Answer} {records : List LogRecord}
    {words : List (List LogRecord)}
    (step : ∀ settings log, (under s settings log).step op =
      .ok (y, under s' settings (log ++ (records.filterMap (LogRecord.heard settings)).toArray)))
    (rest : Tale s' ops words u) : Tale s (op :: ops) (records :: words) u

namespace Session

theorem exists_tale (ops : List Op) : ∀ {s s' : Session} {settings : Settings} {log : Array LogRecord}
    {answers : List Answer}, (∀ op ∈ ops, op.configures = false) →
      (under s settings log).run ops = .ok (answers, s') → ∃ words u, Tale s ops words u := by
  induction ops with
  | nil => intro s s' settings log answers _ _; exact ⟨[], s, .nil s⟩
  | cons op ops ih =>
    intro s s' settings log answers others run
    obtain ⟨y, s₁, answers, step, rest, rfl⟩ := run_cons run
    rcases s.step_blind (others op List.mem_cons_self) with ⟨fault, fails⟩ | ⟨z, s₂, records, runs⟩
    · rw [fails] at step
      cases step
    · rw [runs] at step
      obtain ⟨rfl, rfl⟩ := Prod.mk.inj (Except.ok.inj step)
      obtain ⟨words, u, tale⟩ := ih (fun op mem => others op (List.mem_cons_of_mem _ mem)) rest
      exact ⟨records :: words, u, .cons runs tale⟩

/-- With the settings changed on the way, the words are the same, and the log hears what the settings in
    force let through. -/
theorem Tale.run (ops : List Op) : ∀ {s u : Session} {words : List (List LogRecord)} (settings : Settings)
    (log : Array LogRecord), Tale s (Op.kept ops) words u →
      ∃ answers last, (under s settings log).run ops =
        .ok (answers, under u last (log ++ (Op.heardAlong settings ops words).toArray)) := by
  induction ops with
  | nil =>
    intro s u words settings log tale
    cases tale
    refine ⟨[], settings, ?_⟩
    rw [show log ++ (Op.heardAlong settings [] []).toArray = log from Array.append_empty]
    rfl
  | cons op ops ih =>
    intro s u words settings log tale
    cases config : op.configures with
    | true =>
      cases op with
      | configure τ =>
        obtain ⟨answers, last, run⟩ := ih τ (log.push (.configured τ)) tale
        refine ⟨.settings τ :: answers, last, ?_⟩
        simp only [Session.run, step_configure, bind, Except.bind, run, Op.heardAlong]
        simp
      | _ => cases config
    | false =>
      rw [Op.kept_cons config] at tale
      cases tale with
      | @cons _ s' _ _ _ y records words step rest =>
        obtain ⟨answers, last, run⟩ := ih settings (log ++ (records.filterMap (LogRecord.heard settings)).toArray) rest
        refine ⟨y :: answers, last, ?_⟩
        simp only [Session.run, step, bind, Except.bind, run, Op.heardAlong_cons config]
        rw [← List.append_toArray, ← Array.append_assoc]

end Session

/-- Whatever the settings and wherever they change, runs of the same operations lead to one session but for
    its settings and its log, and their logs hear of one story. -/
theorem run_heard (a : Allocator) (ops : List Op) : ∃ words u, ∀ settings ops', Op.kept ops' = Op.kept ops →
    ∃ answers last, (Session.startOn (.fresh a settings)).run ops' =
      .ok (answers, under u last (Op.heardAlong settings ops' words).toArray) := by
  obtain ⟨s, run, -⟩ := start_represents a .initial (Op.kept ops)
  have run : (under (Session.startOn (.fresh a .initial)) .initial #[]).run (Op.kept ops) = .ok (_, s) := run
  have others : ∀ op ∈ Op.kept ops, op.configures = false := by simp [Op.kept]
  obtain ⟨words, u, tale⟩ := Session.exists_tale (Op.kept ops) others run
  refine ⟨words, u, fun settings ops' same => ?_⟩
  obtain ⟨answers, last, run⟩ := Session.Tale.run ops' settings #[] (same ▸ tale)
  rw [Array.empty_append] at run
  exact ⟨answers, last, run⟩

/-! ## Calls -/

theorem LogRecord.target_eq_boundary (r : LogRecord) : (r.target == "core_runtime::boundary") = r.isCall := by
  cases r <;> rfl

theorem LogRecord.heard_isCall (settings : Settings) (r : LogRecord) :
    (r.heard settings).filter isCall = if settings.traceCalls then Option.guard isCall r else none := by
  unfold heard
  cases r <;> cases settings.traceCalls <;> rfl

/-- Of calls the log hears while they are traced, and of nothing else as of a call. -/
theorem heard_calls (settings : Settings) (records : List LogRecord) :
    (records.filterMap (LogRecord.heard settings)).filter LogRecord.isCall =
      if settings.traceCalls then records.filter LogRecord.isCall else [] := by
  rw [List.filter_filterMap, funext (LogRecord.heard_isCall settings)]
  cases settings.traceCalls with
  | true => exact congrFun List.filterMap_eq_filter records
  | false => simp

/-- A call leaves the settings alone, and a record of the boundary is emitted for it exactly if calls are traced. -/
def Call.Recorded {α : Type} (e : Entry) (c : Call α) : Prop :=
  ∀ st a st', c.run st = .ok (a, st') → st'.settings = st.settings ∧ ∃ records : List LogRecord,
    st'.log = st.log ++ records.toArray ∧
      records.filter (·.target == "core_runtime::boundary") = if st.settings.traceCalls then [.call e] else []

theorem Exported.recorded {α : Type} {e : Entry} {c : Call α} (exported : Exported e c) : Call.Recorded e c := by
  intro st a st' run
  rcases exported.tells st with ⟨fault, fails⟩ | ⟨b, u, t, runs, -, calls⟩
  · have : Except.error fault = .ok (a, st') := (fails st.settings st.log).symm.trans run
    cases this
  · have same : Except.ok (b, _) = .ok (a, st') := (runs st.settings st.log).symm.trans run
    obtain ⟨rfl, rfl⟩ := Prod.mk.inj (Except.ok.inj same)
    refine ⟨rfl, t.heard st.settings, rfl, ?_⟩
    simp only [LogRecord.target_eq_boundary]
    rw [Talk.heard, heard_calls, calls]

/-! ## Settings -/

/-- Settings change no result. Runs of the same operations, over any allocators and with any settings, set
    and changed wherever, show the same after each operation. Over one allocator they lead to the same
    session but for its settings and its log, and there is one story of which either log hears what the
    settings in force let through. A record of the boundary is emitted for a call exactly if calls are traced
    then. And what the program prints, and its exit code, do not depend on the options for settings. -/
theorem settings_change_no_result (a a' : Allocator) (settings settings' : Settings) (ops ops' : List Op)
    (same : Op.kept ops = Op.kept ops') :
    (∃ sights, (Session.startOn (.fresh a settings)).sights ops = .ok sights ∧
      (Session.startOn (.fresh a' settings')).sights ops' = .ok sights) ∧
    (∃ words u answers answers' last last',
      (Session.startOn (.fresh a settings)).run ops =
        .ok (answers, under u last (Op.heardAlong settings ops words).toArray) ∧
      (Session.startOn (.fresh a settings')).run ops' =
        .ok (answers', under u last' (Op.heardAlong settings' ops' words).toArray)) ∧
    (∀ (α : Type) (e : Entry) (c : Call α), Exported e c → Call.Recorded e c) ∧
    ∀ i : Command.Invocation, ∃ outcome, ∀ trace capacity,
      ({ i with options := { i.options with trace, capacity } } : Command.Invocation).run = .ok outcome := by
  refine ⟨⟨_, sights_eq a settings ops, ?_⟩, ?_, fun _ _ _ exported => exported.recorded, fun i => ?_⟩
  · rw [same]
    exact sights_eq a' settings' ops'
  · obtain ⟨words, u, heard⟩ := run_heard a ops
    obtain ⟨answers, last, run⟩ := heard settings ops rfl
    obtain ⟨answers', last', run'⟩ := heard settings' ops' same.symm
    exact ⟨words, u, answers, answers', last, last', run, run'⟩
  · exact ⟨i.outcome .words, fun trace capacity => Command.Invocation.run_eq _⟩

/-- For example, of a vector that is made with room for four, and asked for its length once calls are traced,
    there is no more to see than of any other. -/
theorem settings_change_no_result_vector :
    ∃ sights, (Session.startOn (.fresh .growing ⟨false, 4⟩)).sights
        [.newVector .text, .configure ⟨true, 0⟩, .vectorLen 0] = .ok sights ∧
      (Session.startOn (.fresh .growing .initial)).sights [.newVector .text, .vectorLen 0] = .ok sights ∧
      sights.map Sight.answer = [.slot 0, .length 0 true] := by
  obtain ⟨⟨sights, first, second⟩, -⟩ := settings_change_no_result .growing .growing ⟨false, 4⟩ .initial
    [.newVector .text, .configure ⟨true, 0⟩, .vectorLen 0] [.newVector .text, .vectorLen 0] rfl
  refine ⟨sights, first, second, ?_⟩
  cases second
  rfl

end Custody
