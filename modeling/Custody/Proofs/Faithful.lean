/-
  Custody.Proofs.Faithful — sessions stand for plain values for as long as they run.
-/
import Custody.Proofs.VectorSteps

namespace Custody

variable {s : Session} {p : Plain}

/-- Every operation ends, and answers and does what it does on the plain values. -/
theorem perform_sim (rep : Represents s s.store.world p) (op : Op) :
    Sim (Session.perform op) (Plain.perform .words op) s p Agree := by
  cases op with
  | configure settings => exact Sim.configure rep settings
  | resetLedger => exact Sim.resetLedger rep
  | markLedger => exact Sim.markLedger rep
  | ledgerSinceMark => exact Sim.ledgerSinceMark rep
  | newText => exact Sim.newText rep
  | textFrom t => exact Sim.textFrom rep t
  | readText i via => exact Sim.readText rep i via
  | editText i via edits => exact Sim.editText rep i via edits
  | compareTexts i j => exact Sim.compareTexts rep i j
  | compareWithText i t => exact Sim.compareWithText rep i t
  | hashText i => exact Sim.hashText rep i
  | dropText i => exact Sim.dropText rep i
  | releaseText i => exact Sim.releaseText rep i
  | adoptText i => exact Sim.adoptText rep i
  | freeReleased i => exact Sim.freeReleased rep i
  | countDistinct slots => exact Sim.countDistinct rep slots
  | adoptOwned i => exact Sim.adoptOwned rep i
  | readOwned i => exact Sim.readOwned rep i
  | editOwned i edits => exact Sim.editOwned rep i edits
  | dropOwned i => exact Sim.dropOwned rep i
  | releaseOwned i => exact Sim.releaseOwned rep i
  | newVector e => exact Sim.newVector rep e
  | collectVector e xs => exact Sim.collectVector rep e xs
  | push v x => exact Sim.push rep v x
  | pushText v i => exact Sim.pushText rep v i
  | extend v e xs => exact Sim.extend rep v e xs
  | pop v => exact Sim.pop rep v
  | get v i => exact Sim.getItem rep v i
  | getMut v i => exact Sim.getMutItem rep v i
  | itemAt v i => exact Sim.itemAt rep v i
  | vectorLen v => exact Sim.vectorLen rep v
  | debugVector v => exact Sim.debugVector rep v
  | listVector v => exact Sim.listVector rep v
  | sliceVector v => exact Sim.sliceVector rep v
  | dropVector v => exact Sim.dropVector rep v
  | releaseVector v => exact Sim.releaseVector rep v
  | adoptVector i => exact Sim.adoptVector rep i
  | editItem v i edits => exact Sim.editItem rep v i edits
  | readItem v i => exact Sim.readItem rep v i
  | compareItems v i j => exact Sim.compareItems rep v i j
  | walk v steps => exact Sim.walk rep v steps
  | directPush v x => exact Sim.directPush rep v x
  | directPop v => exact Sim.directPop rep v
  | directGet v i => exact Sim.directGet rep v i
  | directGetMut v i => exact Sim.directGetMut rep v i
  | directLen v => exact Sim.directLen rep v

/-- A step succeeds, with the plain values' answer. -/
theorem step_represents (rep : Represents s s.store.world p) (op : Op) :
    ∃ s', s.step op = .ok ((p.step .words op).1, s') ∧ Represents s' s'.store.world (p.step .words op).2 := by
  unfold Session.step Plain.step
  rcases perform_sim rep op with ⟨x, y, s', p', hs, hp, rfl, rep'⟩ | ⟨why, hs, hp⟩
  · exact ⟨s', by rw [hs, hp], by rw [hp]; exact rep'⟩
  · exact ⟨s, by rw [hs, hp], by rw [hp]; exact rep⟩

namespace Session

theorem run_cons {s s' : Session} {op : Op} {ops : List Op} {answers : List Answer}
    (run : s.run (op :: ops) = .ok (answers, s')) : ∃ y s₁ answers', s.step op = .ok (y, s₁) ∧
      s₁.run ops = .ok (answers', s') ∧ answers = y :: answers' := by
  cases step : s.step op with
  | error fault => simp [Session.run, step, bind, Except.bind] at run
  | ok r =>
    obtain ⟨y, s₁⟩ := r
    cases rest : s₁.run ops with
    | error fault => simp [Session.run, step, rest, bind, Except.bind] at run
    | ok r' =>
      obtain ⟨answers', s₂⟩ := r'
      simp only [Session.run, step, rest, bind, Except.bind, Except.ok.injEq, Prod.mk.injEq] at run
      obtain ⟨rfl, rfl⟩ := run
      exact ⟨y, s₁, answers', rfl, rest, rfl⟩

theorem run_append (ops ops' : List Op) : ∀ {s s' : Session} {answers : List Answer},
    s.run (ops ++ ops') = .ok (answers, s') → ∃ answers₁ s₁ answers₂, s.run ops = .ok (answers₁, s₁) ∧
      s₁.run ops' = .ok (answers₂, s') ∧ answers = answers₁ ++ answers₂ := by
  induction ops with
  | nil => intro s s' answers run; exact ⟨[], s, answers, rfl, run, rfl⟩
  | cons op ops ih =>
    intro s s' answers run
    obtain ⟨y, s₀, answers, step, rest, rfl⟩ := run_cons run
    obtain ⟨answers₁, s₁, answers₂, first, next, rfl⟩ := ih rest
    refine ⟨y :: answers₁, s₁, answers₂, ?_, next, rfl⟩
    simp only [Session.run, step, first, bind, Except.bind]

end Session

/-- And so does a run. -/
theorem run_represents (ops : List Op) : ∀ {s : Session} {p : Plain}, Represents s s.store.world p →
    ∃ s', s.run ops = .ok ((p.run .words ops).1, s') ∧ Represents s' s'.store.world (p.run .words ops).2 := by
  induction ops with
  | nil => intro s p rep; exact ⟨s, rfl, rep⟩
  | cons op ops ih =>
    intro s p rep
    obtain ⟨s₁, step, rep₁⟩ := step_represents rep op
    obtain ⟨s₂, run, rep₂⟩ := ih rep₁
    refine ⟨s₂, ?_, rep₂⟩
    simp only [Session.run, Plain.run, step, run, bind, Except.bind]

/-- A run from a fresh session, wherever its allocations go. -/
theorem start_represents (a : Allocator) (settings : Settings) (ops : List Op) :
    ∃ s, (Session.startOn (.fresh a settings)).run ops = .ok (({ Plain.start with settings }.run .words ops).1, s) ∧
      Represents s s.store.world ({ Plain.start with settings }.run .words ops).2 :=
  run_represents ops (represents_start a settings)

end Custody
