/-
  Custody.Proofs.Differences — what a ledger says against an earlier one of the same run.

  The difference of two ledgers is what was recorded in between, as long as there was no reset and no counter
  had to count to 2^64; differences along a run add up, and the live counts of a difference say how many texts
  and vectors there are more than before. After a reset a difference is what was recorded since, less what the
  earlier ledger had, and no less than nothing.
-/
import Custody.Proofs.LiveCounts

namespace Custody

theorem Ledger.toNat_read_since (l l' : Ledger) (c : Counter) :
    ((l.since l').read c).toNat = (l.read c).toNat - (l'.read c).toNat := by
  cases c <;> exact toNat_monus ..

/-! ## Differences along a run -/

/-- What the ledger of `s` says against that of `m`, where `ds` is what was done in between. -/
structure Session.Differs (m s : Session) (ds : List Deed) : Prop where
  recorded : ∀ c, ((s.store.ledger.since m.store.ledger).read c).toNat = c.recorded ds
  liveTexts : ((s.store.ledger.since m.store.ledger).liveTexts.toNat : Int) = max 0 ((s.textsOut : Int) - m.textsOut)
  liveVectors : ((s.store.ledger.since m.store.ledger).liveVectors.toNat : Int) =
    max 0 ((s.vectorsOut : Int) - m.vectorsOut)

theorem Represents.differs {m s : Session} {p p' : Plain} (rep : Represents m m.store.world p)
    (rep' : Represents s s.store.world p') {ds : List Deed} (deeds : p'.deeds = p.deeds ++ ds)
    (worth : ∀ c, p'.worth c = p.worth c + Deed.worths c ds) (few : ∀ c : Counter, c.recorded p'.deeds < 2 ^ 64) :
    m.Differs s ds := by
  have recorded (c : Counter) : ((s.store.ledger.since m.store.ledger).read c).toNat = c.recorded ds := by
    have all : c.recorded p'.deeds = c.recorded p.deeds + c.recorded ds := by rw [deeds, Counter.recorded_append]
    have few := few c
    rw [Ledger.toNat_read_since, show s.store.ledger = .ofDeeds p'.deeds from rep'.ledger,
      show m.store.ledger = .ofDeeds p.deeds from rep.ledger, Ledger.toNat_read_ofDeeds few,
      Ledger.toNat_read_ofDeeds (by omega), all, Nat.add_sub_cancel_left]
  have texts := worth ⟨1, 0, 0⟩
  have vectors := worth ⟨0, 1, 0⟩
  rw [← rep'.textsOut_eq, ← rep.textsOut_eq, Deed.worths_loose] at texts
  rw [← rep'.vectorsOut_eq, ← rep.vectorsOut_eq, Deed.worths_vectors] at vectors
  refine ⟨recorded, ?_, ?_⟩
  · rw [Ledger.toNat_liveTexts, recorded, recorded, recorded]
    omega
  · rw [Ledger.toNat_liveVectors, recorded, recorded]
    omega

theorem Represents.run_differs {m : Session} {p : Plain} (rep : Represents m m.store.world p) {ops : List Op}
    (noReset : .resetLedger ∉ ops) (few : ∀ c : Counter, c.recorded (p.run .words ops).2.deeds < 2 ^ 64) :
    ∃ s ds, m.run ops = .ok ((p.run .words ops).1, s) ∧ Represents s s.store.world (p.run .words ops).2 ∧
      (p.run .words ops).2.deeds = p.deeds ++ ds ∧ m.Differs s ds := by
  obtain ⟨s, run, rep'⟩ := run_represents ops rep
  obtain ⟨ds, deeds, worth⟩ := Plain.run_balance .words ops (p := p) noReset
  exact ⟨s, ds, run, rep', deeds, rep.differs rep' deeds worth few⟩

/-- Differences along a run add up. -/
theorem Represents.differences_add {m : Session} {p : Plain} (rep : Represents m m.store.world p)
    {sooner later : List Op} (noReset : .resetLedger ∉ sooner ++ later)
    (few : ∀ c : Counter, c.recorded (p.run .words (sooner ++ later)).2.deeds < 2 ^ 64) {answers : List Answer}
    {s : Session} (run : m.run (sooner ++ later) = .ok (answers, s)) :
    ∃ answers₁ k answers₂, m.run sooner = .ok (answers₁, k) ∧ k.run later = .ok (answers₂, s) ∧
      ∀ c, ((s.store.ledger.since m.store.ledger).read c).toNat =
        ((k.store.ledger.since m.store.ledger).read c).toNat + ((s.store.ledger.since k.store.ledger).read c).toNat := by
  have noReset₁ : .resetLedger ∉ sooner := fun mem => noReset (List.mem_append_left _ mem)
  have noReset₂ : .resetLedger ∉ later := fun mem => noReset (List.mem_append_right _ mem)
  obtain ⟨s', ds, run', -, deeds, differs⟩ := rep.run_differs noReset few
  cases run.symm.trans run'
  rw [Plain.run_append] at few deeds
  obtain ⟨ds₂, deeds₂, -⟩ := Plain.run_balance .words later (p := (p.run .words sooner).2) noReset₂
  have few₁ (c : Counter) : c.recorded (p.run .words sooner).2.deeds < 2 ^ 64 := by
    have few := few c
    rw [deeds₂, Counter.recorded_append] at few
    omega
  obtain ⟨k, ds₁, run₁, rep₁, deeds₁, differs₁⟩ := rep.run_differs noReset₁ few₁
  obtain ⟨s', ds₂', run₂, -, deeds₂', differs₂⟩ := rep₁.run_differs noReset₂ few
  obtain ⟨_, k', answers₂, run₁', run₂', -⟩ := Session.run_append sooner later run
  cases run₁.symm.trans run₁'
  cases run₂.symm.trans run₂'
  have parts : ds = ds₁ ++ ds₂' := by
    rw [deeds₂', deeds₁, List.append_assoc] at deeds
    exact (List.append_cancel_left deeds).symm
  refine ⟨_, k, _, run₁, run₂, fun c => ?_⟩
  rw [differs.recorded, differs₁.recorded, differs₂.recorded, parts, Counter.recorded_append]

/-- What was done before a reset does not count any more. -/
theorem Plain.deeds_after_reset (wire : Wire) (sooner later : List Op) (p : Plain) :
    (p.run wire (sooner ++ .resetLedger :: later)).2.deeds =
      ({ (p.run wire sooner).2 with deeds := [] }.run wire later).2.deeds := by
  rw [Plain.run_append]
  rfl

/-- The ledger at the end of a run against the one of any earlier point of it. Without a reset in between the
    difference is what was done since, and it is the sum of the differences along the way; after one it is what
    was done since the last reset, less what the earlier ledger had, as far as that goes. -/
theorem differences_exact (a : Allocator) (settings : Settings) (before since : List Op)
    (few : ∀ c : Counter, c.recorded ({ Plain.start with settings }.run .words (before ++ since)).2.deeds < 2 ^ 64) :
    ∃ answers₀ m answers s, (Session.startOn (.fresh a settings)).run before = .ok (answers₀, m) ∧
      m.run since = .ok (answers, s) ∧
      (.resetLedger ∉ since →
        (∃ ds, ({ Plain.start with settings }.run .words (before ++ since)).2.deeds =
          ({ Plain.start with settings }.run .words before).2.deeds ++ ds ∧ m.Differs s ds) ∧
        ∀ sooner later, since = sooner ++ later → ∃ answers₁ k answers₂, m.run sooner = .ok (answers₁, k) ∧
          k.run later = .ok (answers₂, s) ∧ ∀ c, ((s.store.ledger.since m.store.ledger).read c).toNat =
            ((k.store.ledger.since m.store.ledger).read c).toNat +
              ((s.store.ledger.since k.store.ledger).read c).toNat) ∧
      ∀ sooner later, since = sooner ++ .resetLedger :: later → .resetLedger ∉ later → ∀ c,
        ((s.store.ledger.since m.store.ledger).read c).toNat =
          c.recorded ({ ({ Plain.start with settings }.run .words (before ++ sooner)).2 with deeds := [] }.run
            .words later).2.deeds - (m.store.ledger.read c).toNat := by
  obtain ⟨m, run₀, rep₀⟩ := start_represents a settings before
  obtain ⟨s, run, rep⟩ := run_represents since rep₀
  have whole := Plain.run_append .words before since { Plain.start with settings }
  refine ⟨_, m, _, s, run₀, run, fun noReset => ⟨?_, ?_⟩, ?_⟩
  · rw [whole] at few ⊢
    obtain ⟨s', ds, run', -, deeds, differs⟩ := rep₀.run_differs noReset few
    cases run.symm.trans run'
    exact ⟨ds, deeds, differs⟩
  · rintro sooner later rfl
    rw [whole] at few
    exact rep₀.differences_add noReset few run
  · rintro sooner later rfl noReset c
    have ledger : s.store.ledger = .ofDeeds _ := rep.ledger
    rw [whole] at few
    rw [Plain.run_append .words before sooner, ← Plain.deeds_after_reset, Ledger.toNat_read_since, ledger,
      Ledger.toNat_read_ofDeeds (few c)]

/-- For example, of two texts one is given back and a vector is made: there is one text less, and the difference
    shows none. And of the two texts the ledger knows nothing after a reset: one more does not make up for them. -/
theorem differences_exact_clamped :
    (∃ answers₀ m answers s, (Session.startOn (.fresh .growing .initial)).run [.newText, .newText] =
        .ok (answers₀, m) ∧ m.run [.dropText 0, .newVector .text] = .ok (answers, s) ∧
      m.Differs s [.freed, .vectorMade] ∧ m.textsOut = 2 ∧ s.textsOut = 1 ∧
      ((s.store.ledger.since m.store.ledger).liveTexts.toNat : Int) = 0) ∧
    ∃ answers₀ m answers s, (Session.startOn (.fresh .growing .initial)).run [.newText, .newText] =
        .ok (answers₀, m) ∧ m.run [.resetLedger, .newText] = .ok (answers, s) ∧
      ∀ c, ((s.store.ledger.since m.store.ledger).read c).toNat = 0 := by
  constructor
  · obtain ⟨answers₀, m, answers, s, run₀, run, exact, -⟩ := differences_exact .growing .initial
      [.newText, .newText] [.dropText 0, .newVector .text] fun c => by cases c <;> decide
    obtain ⟨⟨ds, deeds, differs⟩, -⟩ := exact (by simp)
    have deeds : [.created, .created] ++ [.freed, .vectorMade] = [.created, .created] ++ ds := deeds
    obtain rfl := List.append_cancel_left deeds
    cases run₀
    cases run
    exact ⟨_, _, _, _, rfl, rfl, differs, rfl, rfl, differs.liveTexts⟩
  · obtain ⟨answers₀, m, answers, s, run₀, run, -, clamped⟩ := differences_exact .growing .initial
      [.newText, .newText] [.resetLedger, .newText] fun c => by cases c <;> decide
    refine ⟨_, m, _, s, run₀, run, fun c => (clamped [] [.newText] rfl (by simp) c).trans ?_⟩
    cases run₀
    cases c <;> rfl

end Custody
