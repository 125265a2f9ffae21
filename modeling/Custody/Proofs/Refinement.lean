/-
  Custody.Proofs.Refinement — a session is what it is without handles.

  To its consumer a session is a store of independent values: texts and lists, moved from slot to slot
  (`run_refines`). What the store adds to that, handles and allocations and loans into vectors, cannot be
  seen in any answer, and no operation reaches a value that it does not name.
-/
import Custody.Proofs.Faithful
import Custody.Proofs.Ideal

namespace Custody

/-- What the allocation holds that a slot has to give back. -/
def Session.object? (s : Session) (q : Holder) : Option Object := (s.handle? q).bind s.store.heap.find?

theorem Represents.object?_eq {s : Session} {p : Plain} (rep : Represents s s.store.world p) (q : Holder) :
    s.object? q = p.object? q := by
  obtain ⟨k, i⟩ := q
  cases value : (k.plain.of p).get? i with
  | none => rw [Session.object?, Session.handle?, Plain.object?, rep.absent value, value]; rfl
  | some v =>
    obtain ⟨h, held, live⟩ := rep.handle?_of_value value
    rw [Session.object?, Plain.object?, held, value]
    exact live

/-- An operation leaves alone what other slots hold. -/
theorem Represents.frame {s s' : Session} {p : Plain} (rep : Represents s s.store.world p) {op : Op} {answer : Answer}
    (run : s.step op = .ok (answer, s')) {q : Holder} {o : Object} (other : q ∉ op.changes)
    (there : s.object? q = some o) : s'.object? q = some o := by
  obtain ⟨s'', step, rep'⟩ := step_represents rep op
  obtain ⟨-, rfl⟩ := Prod.mk.inj (Except.ok.inj (step.symm.trans run))
  rw [rep'.object?_eq]
  rw [rep.object?_eq] at there
  exact Plain.step_frame .words op other there

/-- A run answers as the plain values do, its slots hold what they hold, and an operation changes nothing
    but what it names. The sizes of all texts and vectors have to be words. -/
theorem run_refines (a : Allocator) (settings : Settings) (ops : List Op)
    (fits : ({ Plain.start with settings } : Plain).FitsAlong ops) :
    ∃ s, (Session.startOn (.fresh a settings)).run ops =
        .ok (({ Plain.start with settings }.run .ideal ops).1, s) ∧
      (∀ q, s.object? q = ({ Plain.start with settings }.run .ideal ops).2.object? q) ∧
        ∀ op answer s', s.step op = .ok (answer, s') →
          ∀ q o, q ∉ op.changes → s.object? q = some o → s'.object? q = some o := by
  obtain ⟨s, run, rep⟩ := start_represents a settings ops
  rw [Plain.run_fits ops fits] at run rep
  exact ⟨s, run, rep.object?_eq, fun op answer s' step q o other there => rep.frame step other there⟩

/-- For example, a text that goes into a vector and comes out of it is the text that it was. -/
theorem run_refines_round_trip :
    ∃ answers s, (Session.startOn (.fresh .growing .initial)).run
        [.textFrom "ab", .newVector .text, .pushText 0 0, .pop 0] = .ok (answers, s) ∧
      s.object? ⟨.texts, 0⟩ = none ∧ s.object? ⟨.texts, 1⟩ = some (.text "ab") := by
  obtain ⟨s, run, holds, -⟩ := run_refines .growing .initial
    [.textFrom "ab", .newVector .text, .pushText 0 0, .pop 0]
    ⟨by decide, show Wire.Fits "ab" by decide, by decide, trivial, by decide, trivial, by decide, trivial,
      show Plain.Fits _ by decide⟩
  exact ⟨_, s, run, holds ⟨.texts, 0⟩, holds ⟨.texts, 1⟩⟩

end Custody
