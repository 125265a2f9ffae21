/-
  Custody.Proofs.Conservation — no text is lost, and none is given back twice.

  Every text that was made was given back, was dropped with a vector, or is still there; every one that
  was moved into a vector was dropped with it, was popped, or is still inside (`texts_conserved`). Vectors
  of primitive values have no part in it (`Plain.scalar_deeds`).
-/
import Custody.Proofs.LiveCounts
import Custody.Proofs.Told

namespace Custody

/-- The type of the items of the vector that an operation makes or is about, where `vectors` and
    `released` tell it for the vectors that there are. -/
def Op.element (vectors released : Nat → Option Element) : Op → Option Element
  | .newVector e | .collectVector e _ | .push _ ⟨e, _⟩ | .extend _ e _ | .directPush _ ⟨e, _⟩ => some e
  | .pushText v _ | .pop v | .get v _ | .getMut v _ | .itemAt v _ | .vectorLen v | .debugVector v | .listVector v
  | .sliceVector v | .dropVector v | .releaseVector v | .editItem v _ _ | .readItem v _ | .compareItems v _ _
  | .walk v _ | .directPop v | .directGet v _ | .directGetMut v _ | .directLen v => vectors v
  | .adoptVector i => released i
  | _ => none

def Session.element (s : Session) (op : Op) : Option Element :=
  op.element (fun v => (s.vectors.get? v).map (·.1)) fun i => (s.releasedVectors.get? i).map (·.1)

/-! ## Vectors of primitive values -/

namespace Plain

def element (p : Plain) (op : Op) : Option Element :=
  op.element (fun v => (p.vectors.get? v).map (·.1)) fun i => (p.releasedVectors.get? i).map (·.1)

/-- No text has a part in these deeds. -/
def Textless (ds : List Deed) : Prop := ∀ d ∈ ds, d = .vectorMade ∨ d = .vectorEnded 0

theorem textless_nil : Textless [] := fun _ mem => nomatch mem

variable {p : Plain} (wire : Wire) {q : Primitive}

theorem walkStep_scalar (xs : List q.Value) (cs : Cursors) (s : CursorStep) :
    (walkStep (e := .scalar q) wire xs cs s).deeds = [] := by
  obtain ⟨i, action⟩ := s
  cases action with
  | push x =>
    obtain ⟨e, x⟩ := x
    unfold walkStep
    by_cases same : e = .scalar q
    · subst same
      simp only [dite_true]
      rfl
    · simp only [same, dite_false]
  | _ => rfl

theorem walk_scalar (steps : List CursorStep) : ∀ (xs : List q.Value) (cs : Cursors),
    (walk (e := .scalar q) wire xs cs steps).2.2 = [] := by
  induction steps with
  | nil => intro xs cs; rfl
  | cons s steps ih =>
    intro xs cs
    show (walkStep (e := .scalar q) wire xs cs s).deeds ++ (walk wire _ _ steps).2.2 = []
    rw [walkStep_scalar]
    exact ih _ _

theorem pushAll_scalar {α : Type} (xs : List α) : (xs.flatMap fun _ => (Element.scalar q).pushDeeds) = [] := by
  induction xs with
  | nil => rfl
  | cons x xs ih => exact ih

/-- What is done to vectors of primitive values is done to no text. -/
theorem perform_scalar (op : Op) (scalar : p.element op = some (.scalar q)) :
    Ends (perform wire op) p fun _ p' => Does Textless p p' := by
  -- the vector that is found in a slot is of the type that the slot is known to have
  have found {v : Nat} {e : Element} {xs : List e.Item} (known : (p.vectors.get? v).map (·.1) = some (.scalar q))
      (at_v : p.vectors.get? v = some ⟨e, xs⟩) : e = .scalar q := by
    rw [at_v] at known
    exact Option.some.inj known
  cases op with
  | newVector e =>
    apply Ends.modify
    refine Ends.add .vectors fun _ => ?_
    apply Ends.pure
    refine ⟨_, rfl, fun d mem => ?_⟩
    exact .inl (List.mem_singleton.mp mem)
  | collectVector e xs =>
    obtain rfl : e = .scalar q := Option.some.inj scalar
    apply Ends.modify
    refine Ends.add .vectors fun _ => ?_
    apply Ends.pure
    refine ⟨_, rfl, fun d mem => ?_⟩
    rw [pushAll_scalar] at mem
    exact .inl (List.mem_singleton.mp mem)
  | push v x =>
    obtain ⟨e, x⟩ := x
    obtain rfl : e = .scalar q := Option.some.inj scalar
    refine Ends.itemsOf fun _ _ => ?_
    apply Ends.modify
    apply Ends.modify
    apply Ends.pure
    exact ⟨_, rfl, textless_nil⟩
  | pushText v i =>
    refine Ends.itemsOf fun _ at_v => ?_
    cases found scalar at_v
  | extend v e ys =>
    obtain rfl : e = .scalar q := Option.some.inj scalar
    refine Ends.itemsOf fun _ _ => ?_
    apply Ends.modify
    apply Ends.modify
    apply Ends.pure
    refine ⟨_, rfl, ?_⟩
    rw [pushAll_scalar]
    exact textless_nil
  | pop v =>
    refine Ends.peek .vectors fun ⟨e, xs⟩ at_v => ?_
    obtain rfl := found scalar at_v
    exact Ends.modify (Ends.pure (.nothing (p := p) textless_nil))
  | get v i => exact Ends.peek .vectors fun _ _ => Ends.pure (.nothing textless_nil)
  | getMut v i => exact Ends.peek .vectors fun _ _ => Ends.pure (.nothing textless_nil)
  | itemAt v i =>
    refine Ends.peek .vectors fun ⟨e, xs⟩ _ => ?_
    dsimp only
    split <;> exact Ends.pure (.nothing textless_nil)
  | vectorLen v => exact Ends.peek .vectors fun _ _ => Ends.pure (.nothing textless_nil)
  | debugVector v => exact Ends.peek .vectors fun _ _ => Ends.pure (.nothing textless_nil)
  | listVector v => exact Ends.peek .vectors fun _ _ => Ends.pure (.nothing textless_nil)
  | sliceVector v => exact Ends.peek .vectors fun _ _ => Ends.pure (.nothing textless_nil)
  | dropVector v =>
    refine Ends.take .vectors fun ⟨e, xs⟩ at_v => ?_
    obtain rfl := found scalar at_v
    refine Ends.modify (Ends.pure ⟨_, rfl, fun d mem => ?_⟩)
    exact .inr (List.mem_singleton.mp mem)
  | releaseVector v =>
    refine Ends.take .vectors fun _ _ => ?_
    refine Ends.add .releasedVectors fun _ => ?_
    apply Ends.pure
    exact .nothing (p := p) textless_nil
  | adoptVector i =>
    refine Ends.take .releasedVectors fun _ _ => ?_
    refine Ends.add .vectors fun _ => ?_
    apply Ends.pure
    exact .nothing (p := p) textless_nil
  | editItem v i edits =>
    refine Ends.itemsOf fun _ at_v => ?_
    cases found scalar at_v
  | readItem v i => exact Ends.itemsOf fun _ _ => Ends.pure (.nothing textless_nil)
  | compareItems v i j => exact Ends.itemsOf fun _ _ => Ends.pure (.nothing textless_nil)
  | walk v steps =>
    refine Ends.peek .vectors fun ⟨e, xs⟩ at_v => ?_
    obtain rfl := found scalar at_v
    apply Ends.modify
    apply Ends.modify
    apply Ends.pure
    refine ⟨_, rfl, ?_⟩
    rw [walk_scalar]
    exact textless_nil
  | directPush v x =>
    obtain ⟨e, x⟩ := x
    obtain rfl : e = .scalar q := Option.some.inj scalar
    refine Ends.itemsOf fun _ _ => ?_
    apply Ends.modify
    apply Ends.modify
    apply Ends.pure
    exact ⟨_, rfl, textless_nil⟩
  | directPop v =>
    refine Ends.peek .vectors fun ⟨e, xs⟩ at_v => ?_
    obtain rfl := found scalar at_v
    apply Ends.modify
    apply Ends.modify
    apply Ends.pure
    exact ⟨_, rfl, textless_nil⟩
  | directGet v i => exact Ends.peek .vectors fun _ _ => Ends.pure (.nothing textless_nil)
  | directGetMut v i => exact Ends.peek .vectors fun _ _ => Ends.pure (.nothing textless_nil)
  | directLen v => exact Ends.peek .vectors fun _ _ => Ends.pure (.nothing textless_nil)
  | _ => cases scalar

theorem step_scalar (op : Op) (scalar : p.element op = some (.scalar q)) : Does Textless p (p.step wire op).2 := by
  unfold step
  cases run : (perform wire op).run p with
  | ok r => exact perform_scalar wire op scalar r.1 r.2 run
  | error why => exact .nothing textless_nil

end Plain

/-! ## Conservation -/

/-- Where texts are, against the ledger of `s`, of `made` texts of which `popped` were popped. -/
structure Session.Conserved (s : Session) (made popped : Nat) : Prop where
  texts : made = s.store.ledger.textFrees.toNat + s.store.ledger.elementsDropped.toNat + s.textsOut + s.textsInside
  transfers : s.store.ledger.textTransfers.toNat = s.store.ledger.elementsDropped.toNat + popped + s.textsInside
  /-- When everything was given back, everything was given back once. -/
  atTheEnd : s.textsOut = 0 → s.vectorsOut = 0 →
    made = s.store.ledger.textFrees.toNat + s.store.ledger.elementsDropped.toNat ∧
      s.store.ledger.liveTexts = 0 ∧ s.store.ledger.liveVectors = 0

/-- The counters of texts are the same in both ledgers. -/
structure Ledger.SameTexts (l l' : Ledger) : Prop where
  allocs : l'.textAllocs = l.textAllocs
  frees : l'.textFrees = l.textFrees
  transfers : l'.textTransfers = l.textTransfers
  dropped : l'.elementsDropped = l.elementsDropped

theorem Ledger.sameTexts_of_textless {ds ds' : List Deed} (textless : Plain.Textless ds') :
    (ofDeeds ds).SameTexts (ofDeeds (ds ++ ds')) := by
  have same (c : Counter) (made : c.adds .vectorMade = 0) (ended : c.adds (.vectorEnded 0) = 0) :
      (ofDeeds (ds ++ ds')).read c = (ofDeeds ds).read c := by
    have none : c.recorded ds' = 0 := by
      refine List.sum_eq_zero fun n mem => ?_
      obtain ⟨d, there, rfl⟩ := List.mem_map.mp mem
      rcases textless d there with rfl | rfl
      · exact made
      · exact ended
    rw [read_ofDeeds, read_ofDeeds, Counter.recorded_append, none, Nat.add_zero]
  exact ⟨same .textAllocs rfl rfl, same .textFrees rfl rfl, same .textTransfers rfl rfl, same .elementsDropped rfl rfl⟩

theorem Represents.element_eq {s : Session} {w : World} {p : Plain} (rep : Represents s w p) (op : Op) :
    s.element op = p.element op := by
  have vectors (v : Nat) : (s.vectors.get? v).map (·.1) = (p.vectors.get? v).map (·.1) := by
    cases value : p.vectors.get? v with
    | none => rw [show s.vectors.get? v = none from rep.absent (k := .vectors) value]; rfl
    | some xs =>
      obtain ⟨h, entry, -⟩ := rep.value (k := .vectors) value
      rw [show s.vectors.get? v = some ⟨xs.1, .adopt xs.1 h⟩ from entry]; rfl
  have released (i : Nat) : (s.releasedVectors.get? i).map (·.1) = (p.releasedVectors.get? i).map (·.1) := by
    cases value : p.releasedVectors.get? i with
    | none => rw [show s.releasedVectors.get? i = none from rep.absent (k := .releasedVectors) value]; rfl
    | some xs =>
      obtain ⟨h, entry, -⟩ := rep.value (k := .releasedVectors) value
      rw [show s.releasedVectors.get? i = some (xs.1, h) from entry]; rfl
  rw [Session.element, Plain.element, funext vectors, funext released]

/-- An operation on a vector of primitive values counts no texts. -/
theorem Represents.step_sameTexts {s s' : Session} {p : Plain} {op : Op} {answer : Answer} {q : Primitive}
    (rep : Represents s s.store.world p) (scalar : s.element op = some (.scalar q))
    (run : s.step op = .ok (answer, s')) : s.store.ledger.SameTexts s'.store.ledger := by
  obtain ⟨s'', step, rep'⟩ := step_represents rep op
  obtain ⟨-, rfl⟩ := Prod.mk.inj (Except.ok.inj (step.symm.trans run))
  obtain ⟨ds, deeds, textless⟩ := Plain.step_scalar .words op ((rep.element_eq op).symm.trans scalar)
  have before : s.store.ledger = .ofDeeds p.deeds := rep.ledger
  have after : s''.store.ledger = .ofDeeds (p.step .words op).2.deeds := rep'.ledger
  rw [before, after, deeds]
  exact Ledger.sameTexts_of_textless textless

/-- Deeds that begin with nothing explain where texts are. -/
theorem Represents.conserved {s : Session} {p : Plain} (rep : Represents s s.store.world p)
    (worth : ∀ c, p.worth c = Deed.worths c p.deeds)
    (fewTexts : p.deeds.count .created + p.deeds.count .popped < 2 ^ 64)
    (fewVectors : p.deeds.count .vectorMade < 2 ^ 64) :
    s.Conserved (p.deeds.count .created) (p.deeds.count .popped) := by
  have out := worth ⟨1, 0, 0⟩
  have vectors := worth ⟨0, 1, 0⟩
  have inside := worth ⟨0, 0, 1⟩
  rw [← rep.textsOut_eq, Deed.worths_loose] at out
  rw [← rep.vectorsOut_eq, Deed.worths_vectors] at vectors
  rw [← rep.textsInside_eq, Deed.worths_inside] at inside
  have allocs : Counter.textAllocs.recorded p.deeds = p.deeds.count .created + p.deeds.count .popped :=
    Counter.recorded_eq ..
  have made : Counter.vectorAllocs.recorded p.deeds = p.deeds.count .vectorMade := Counter.recorded_eq ..
  -- no counter runs over: what is counted later was counted by one of these two before
  have few (c : Counter) : c.recorded p.deeds < 2 ^ 64 := by
    cases c <;> omega
  have counts (c : Counter) : (s.store.ledger.read c).toNat = c.recorded p.deeds := by
    rw [show s.store.ledger = .ofDeeds p.deeds from rep.ledger]
    exact Ledger.toNat_read_ofDeeds (few c)
  have frees : s.store.ledger.textFrees.toNat = _ := counts .textFrees
  have transfers : s.store.ledger.textTransfers.toNat = _ := counts .textTransfers
  have dropped : s.store.ledger.elementsDropped.toNat = _ := counts .elementsDropped
  refine ⟨?_, ?_, fun noTexts noVectors => ?_⟩
  · rw [frees, dropped]; omega
  · rw [transfers, dropped]; omega
  · have empty := s.textsInside_of_noVectors noVectors
    have liveTexts := s.store.ledger.toNat_liveTexts
    have liveVectors := s.store.ledger.toNat_liveVectors
    rw [counts, counts, counts] at liveTexts
    rw [counts, counts] at liveVectors
    refine ⟨?_, UInt64.toNat_inj.mp ?_, UInt64.toNat_inj.mp ?_⟩
    · rw [frees, dropped]; omega
    · rw [UInt64.toNat_zero]; omega
    · rw [UInt64.toNat_zero]; omega

/-- No text is lost and none is given back twice, as long as the counters can count: `Op.created` are the
    texts that the run made, `Op.popped` those that it took out of vectors. Whatever is done to a vector of
    primitive values then, the counters of texts stay as they are. -/
theorem texts_conserved (a : Allocator) (settings : Settings) (ops : List Op) (noReset : .resetLedger ∉ ops) :
    ∃ answers s, (Session.startOn (.fresh a settings)).run ops = .ok (answers, s) ∧
      (Op.sumOver Op.created ops answers + Op.sumOver Op.popped ops answers < 2 ^ 64 →
        Op.sumOver Op.vectorsMade ops answers < 2 ^ 64 →
          s.Conserved (Op.sumOver Op.created ops answers) (Op.sumOver Op.popped ops answers)) ∧
      ∀ op q answer s', s.element op = some (.scalar q) → s.step op = .ok (answer, s') →
        s.store.ledger.SameTexts s'.store.ledger := by
  obtain ⟨s, run, rep⟩ := start_represents a settings ops
  refine ⟨_, s, run, fun fewTexts fewVectors => ?_, fun op q answer s' scalar step => rep.step_sameTexts scalar step⟩
  obtain ⟨ds, deeds, worth⟩ := Plain.run_balance .words ops (p := { Plain.start with settings }) noReset
  obtain ⟨created, popped, made⟩ := Plain.run_told .words ops (p := { Plain.start with settings }) noReset
  have nothing : ({ Plain.start with settings } : Plain).deeds = [] := rfl
  have zero (c : Prices) : ({ Plain.start with settings } : Plain).worth c = 0 := rfl
  rw [nothing, List.nil_append] at deeds
  rw [nothing, List.count_nil, Nat.zero_add] at created popped made
  subst deeds
  rw [← created, ← popped] at fewTexts ⊢
  rw [← made] at fewVectors
  refine rep.conserved (fun c => ?_) fewTexts fewVectors
  rw [worth c, zero, Int.zero_add]

/-- For example, of a text that is dropped with the vector that it was moved into. -/
theorem texts_conserved_in_vector :
    ∃ answers s, (Session.startOn (.fresh .growing .initial)).run
        [.textFrom "ab", .newVector .text, .pushText 0 0, .dropVector 0] = .ok (answers, s) ∧ s.Conserved 1 0 := by
  obtain ⟨answers, s, run, conserved, -⟩ := texts_conserved .growing .initial
    [.textFrom "ab", .newVector .text, .pushText 0 0, .dropVector 0] (by simp)
  cases run
  exact ⟨_, _, rfl, conserved (by decide) (by decide)⟩

end Custody
