/-
  Custody.Proofs.LiveCounts — the ledger's live counts are exact.

  A ledger has six counters (`Counter`), and each deed adds to each of them what it is worth to it. Counters are
  words, so a ledger shows what was done as long as no counter had to count to 2^64 (`Deed.Countable`). What
  there is then differs from what there was at the last reset by what the ledger says (`Session.Counted`); after
  a reset that may be less than nothing, and without one it is what there is.
-/
import Custody.Proofs.Balance
import Custody.Proofs.Faithful

namespace Custody

/-! ## Counters -/

/-- What a ledger counts. -/
inductive Counter where
  | textAllocs
  | textFrees
  | textTransfers
  | vectorAllocs
  | vectorFrees
  | elementsDropped
  deriving DecidableEq

def Ledger.read (l : Ledger) : Counter → UInt64
  | .textAllocs => l.textAllocs
  | .textFrees => l.textFrees
  | .textTransfers => l.textTransfers
  | .vectorAllocs => l.vectorAllocs
  | .vectorFrees => l.vectorFrees
  | .elementsDropped => l.elementsDropped

namespace Counter

/-- What a deed adds to the counter. -/
def adds : Counter → Deed → Nat
  | textAllocs, .created | textAllocs, .popped => 1
  | textFrees, .freed => 1
  | textTransfers, .moved => 1
  | vectorAllocs, .vectorMade => 1
  | vectorFrees, .vectorEnded _ => 1
  | elementsDropped, .vectorEnded texts => texts
  | _, _ => 0

def recorded (c : Counter) (ds : List Deed) : Nat := (ds.map c.adds).sum

theorem recorded_cons (c : Counter) (d : Deed) (ds : List Deed) :
    c.recorded (d :: ds) = c.adds d + c.recorded ds := rfl

@[simp] theorem recorded_append (c : Counter) (ds ds' : List Deed) :
    c.recorded (ds ++ ds') = c.recorded ds + c.recorded ds' := by
  simp [recorded]

end Counter

namespace Ledger

theorem ofDeeds_concat (ds : List Deed) (d : Deed) : ofDeeds (ds ++ [d]) = (ofDeeds ds).record d.event := by
  simp [ofDeeds]

theorem read_record (l : Ledger) (d : Deed) (c : Counter) :
    (l.record d.event).read c = l.read c + UInt64.ofNat (c.adds d) := by
  cases d <;> cases c <;> simp [record, Deed.event, read, Counter.adds]

theorem read_ofDeeds (ds : List Deed) (c : Counter) : (ofDeeds ds).read c = UInt64.ofNat (c.recorded ds) := by
  induction ds using List.reverseRecOn with
  | nil => cases c <;> rfl
  | append_singleton ds d ih =>
    rw [ofDeeds_concat, read_record, ih, Counter.recorded_append, UInt64.ofNat_add]
    simp [Counter.recorded]

theorem toNat_read_ofDeeds {ds : List Deed} {c : Counter} (few : c.recorded ds < 2 ^ 64) :
    ((ofDeeds ds).read c).toNat = c.recorded ds := by
  rw [read_ofDeeds]
  exact UInt64.toNat_ofNat_of_lt few

theorem toNat_liveTexts (l : Ledger) : (l.liveTexts.toNat : Int) =
    max 0 (((l.read .textAllocs).toNat : Int) - (l.read .textFrees).toNat - (l.read .textTransfers).toNat) := by
  simp only [liveTexts, toNat_monus, read]
  omega

theorem toNat_liveVectors (l : Ledger) : (l.liveVectors.toNat : Int) =
    max 0 (((l.read .vectorAllocs).toNat : Int) - (l.read .vectorFrees).toNat) := by
  simp only [liveVectors, toNat_monus, read]
  omega

end Ledger

/-! ## Counting deeds -/

namespace Deed

/-- How many vectors ended. -/
def ended : Deed → Nat
  | .vectorEnded _ => 1
  | _ => 0

/-- How many texts were in a vector that ended. -/
def endedTexts : Deed → Nat
  | .vectorEnded texts => texts
  | _ => 0

def vectorsEnded (ds : List Deed) : Nat := (ds.map ended).sum

def textsEnded (ds : List Deed) : Nat := (ds.map endedTexts).sum

/-- No counter has to count to 2^64. -/
structure Countable (ds : List Deed) : Prop where
  textAllocs : ds.count .created + ds.count .popped < 2 ^ 64
  textFrees : ds.count .freed < 2 ^ 64
  textTransfers : ds.count .moved < 2 ^ 64
  vectorAllocs : ds.count .vectorMade < 2 ^ 64
  vectorFrees : vectorsEnded ds < 2 ^ 64
  elementsDropped : textsEnded ds < 2 ^ 64

end Deed

/-- What a counter has, by how many deeds there are of each kind. -/
theorem Counter.recorded_eq (c : Counter) (ds : List Deed) : c.recorded ds =
    match c with
    | textAllocs => ds.count .created + ds.count .popped
    | textFrees => ds.count .freed
    | textTransfers => ds.count .moved
    | vectorAllocs => ds.count .vectorMade
    | vectorFrees => Deed.vectorsEnded ds
    | elementsDropped => Deed.textsEnded ds := by
  induction ds with
  | nil => cases c <;> rfl
  | cons d ds ih =>
    rw [recorded_cons, ih]
    cases c <;> cases d <;>
      simp [adds, Deed.vectorsEnded, Deed.textsEnded, Deed.ended, Deed.endedTexts] <;> omega

namespace Deed

theorem Countable.few {ds : List Deed} (countable : Countable ds) (c : Counter) : c.recorded ds < 2 ^ 64 := by
  rw [Counter.recorded_eq]
  cases c
  case textAllocs => exact countable.textAllocs
  case textFrees => exact countable.textFrees
  case textTransfers => exact countable.textTransfers
  case vectorAllocs => exact countable.vectorAllocs
  case vectorFrees => exact countable.vectorFrees
  case elementsDropped => exact countable.elementsDropped

/-- What deeds are worth, by what the counters have. -/
theorem worths_eq (c : Prices) (ds : List Deed) :
    worths c ds = c.loose * (Counter.textAllocs.recorded ds - Counter.textFrees.recorded ds -
        Counter.textTransfers.recorded ds) +
      c.vector * (Counter.vectorAllocs.recorded ds - Counter.vectorFrees.recorded ds) +
      c.inside * (Counter.textTransfers.recorded ds - ds.count .popped - Counter.elementsDropped.recorded ds) := by
  induction ds with
  | nil => simp [worths, Counter.recorded]
  | cons d ds ih =>
    rw [worths_cons, ih]
    cases d <;> simp [worth, Counter.recorded_cons, Counter.adds] <;> ring

theorem worths_loose (ds : List Deed) : worths ⟨1, 0, 0⟩ ds =
    Counter.textAllocs.recorded ds - Counter.textFrees.recorded ds - Counter.textTransfers.recorded ds := by
  simp [worths_eq]

theorem worths_vectors (ds : List Deed) :
    worths ⟨0, 1, 0⟩ ds = Counter.vectorAllocs.recorded ds - Counter.vectorFrees.recorded ds := by
  simp [worths_eq]

theorem worths_inside (ds : List Deed) : worths ⟨0, 0, 1⟩ ds =
    Counter.textTransfers.recorded ds - ds.count .popped - Counter.elementsDropped.recorded ds := by
  simp [worths_eq]

end Deed

/-! ## Counting what there is -/

/-- How many texts are in the vector of a handle. -/
def Store.textsIn (st : Store) (h : Handle) : Nat :=
  match st.heap.find? h with
  | some (.vector e xs) => e.texts xs.size
  | _ => 0

theorem Store.textsIn_eq {st : Store} {h : Handle} {xs : AnyItems}
    (live : st.world.find h = some (.ofList xs.1 xs.2)) :
    (st.textsIn h : Int) = (Object.ofList xs.1 xs.2).worth ⟨0, 0, 1⟩ := by
  have live : st.heap.find? h = some (.vector xs.1 xs.2.toArray) := live
  simp [textsIn, live, Object.worth_ofList]

namespace Session

/-- Owned handles of texts: those of owners that own, and those that were released. -/
def textsOut (s : Session) : Nat :=
  s.texts.total (fun o => if o.ownsMemory then 1 else 0) + s.owned.total (fun o => if o.ownsMemory then 1 else 0) +
    s.released.total fun _ => 1

/-- Vectors that were not dropped, the released ones included. -/
def vectorsOut (s : Session) : Nat := s.vectors.total (fun _ => 1) + s.releasedVectors.total fun _ => 1

/-- Texts inside those vectors. -/
def textsInside (s : Session) : Nat :=
  s.vectors.total (fun v => s.store.textsIn v.2.handle) + s.releasedVectors.total fun v => s.store.textsIn v.2

end Session

namespace Slots

theorem cast_total {α : Type} (f : α → Nat) (s : Slots α) :
    ((s.total f : Nat) : Int) = s.total fun a => (f a : Int) := by
  rw [total, Nat.cast_sum, total]
  refine Finset.sum_congr rfl fun i _ => ?_
  cases s.get? i <;> rfl

end Slots

/-- Where there are no vectors, there are no texts inside. -/
theorem Session.textsInside_of_noVectors (s : Session) (none : s.vectorsOut = 0) : s.textsInside = 0 := by
  obtain ⟨vectors, released⟩ := Nat.add_eq_zero_iff.mp none
  rw [textsInside, Slots.total_of_empty vectors, Slots.total_of_empty released]

namespace Represents

variable {s : Session} {p : Plain}

/-- Entries weigh what their values weigh. -/
theorem total {w : World} (rep : Represents s w p) (k : Shelf) {f : k.Entry → Nat} {g : k.Value → Int}
    (same : ∀ h v, w.find h = some (k.object v) → (f (k.entry h v) : Int) = g v) :
    (((k.table.of s).total f : Nat) : Int) = (k.plain.of p).total g := by
  rw [Slots.cast_total]
  refine Slots.total_congr _ _ (rep.next k) fun i => ?_
  cases value : (k.plain.of p).get? i with
  | none => rw [rep.absent value]; rfl
  | some v =>
    obtain ⟨h, entry, live⟩ := rep.value value
    rw [entry]
    exact same h v live

variable (rep : Represents s s.store.world p)

include rep

theorem textsOut_eq : (s.textsOut : Int) = p.worth ⟨1, 0, 0⟩ := by
  have texts := rep.total .texts (f := fun o => if o.ownsMemory then 1 else 0)
    (g := fun t => (Object.text t).worth ⟨1, 0, 0⟩) fun _ _ _ => rfl
  have owned := rep.total .owned (f := fun o => if o.ownsMemory then 1 else 0)
    (g := fun t => (Object.text t).worth ⟨1, 0, 0⟩) fun _ _ _ => rfl
  have released := rep.total .released (f := fun _ => 1)
    (g := fun t => (Object.text t).worth ⟨1, 0, 0⟩) fun _ _ _ => rfl
  have none (xs : AnyItems) : (Object.ofList xs.1 xs.2).worth ⟨1, 0, 0⟩ = 0 := by simp [Object.worth_ofList]
  rw [Plain.worth, Slots.total_zero none, Slots.total_zero none, Int.add_zero, Int.add_zero, Session.textsOut,
    Int.natCast_add, Int.natCast_add]
  exact congr (congrArg _ (congr (congrArg _ texts) owned)) released

theorem vectorsOut_eq : (s.vectorsOut : Int) = p.worth ⟨0, 1, 0⟩ := by
  have one (xs : AnyItems) : (1 : Int) = (Object.ofList xs.1 xs.2).worth ⟨0, 1, 0⟩ := by simp [Object.worth_ofList]
  have vectors := rep.total .vectors (f := fun _ => 1)
    (g := fun xs => (Object.ofList xs.1 xs.2).worth ⟨0, 1, 0⟩) fun _ xs _ => one xs
  have released := rep.total .releasedVectors (f := fun _ => 1)
    (g := fun xs => (Object.ofList xs.1 xs.2).worth ⟨0, 1, 0⟩) fun _ xs _ => one xs
  have none (t : String) : (Object.text t).worth ⟨0, 1, 0⟩ = 0 := rfl
  rw [Plain.worth, Slots.total_zero none, Slots.total_zero none, Slots.total_zero none, Int.add_zero, Int.add_zero,
    Int.zero_add, Session.vectorsOut, Int.natCast_add]
  exact congr (congrArg _ vectors) released

theorem textsInside_eq : (s.textsInside : Int) = p.worth ⟨0, 0, 1⟩ := by
  have vectors := rep.total .vectors (f := fun v => s.store.textsIn v.2.handle)
    (g := fun xs => (Object.ofList xs.1 xs.2).worth ⟨0, 0, 1⟩) fun _ _ live => Store.textsIn_eq live
  have released := rep.total .releasedVectors (f := fun v => s.store.textsIn v.2)
    (g := fun xs => (Object.ofList xs.1 xs.2).worth ⟨0, 0, 1⟩) fun _ _ live => Store.textsIn_eq live
  have none (t : String) : (Object.text t).worth ⟨0, 0, 1⟩ = 0 := rfl
  rw [Plain.worth, Slots.total_zero none, Slots.total_zero none, Slots.total_zero none, Int.add_zero, Int.add_zero,
    Int.zero_add, Session.textsInside, Int.natCast_add]
  exact congr (congrArg _ vectors) released

end Represents

/-! ## Live counts -/

/-- What the ledger of `s` says, against what there was in `s₀`, when it was empty. -/
structure Session.Counted (s₀ s : Session) : Prop where
  texts : (s.store.ledger.textAllocs.toNat : Int) - s.store.ledger.textFrees.toNat -
    s.store.ledger.textTransfers.toNat = s.textsOut - s₀.textsOut
  vectors : (s.store.ledger.vectorAllocs.toNat : Int) - s.store.ledger.vectorFrees.toNat =
    s.vectorsOut - s₀.vectorsOut
  liveTexts : (s.store.ledger.liveTexts.toNat : Int) = max 0 (s.textsOut - s₀.textsOut)
  liveVectors : (s.store.ledger.liveVectors.toNat : Int) = max 0 (s.vectorsOut - s₀.vectorsOut)

/-- What the ledger of `s` says if it was empty when there was nothing: no subtraction has to stop at zero. -/
structure Session.CountedFromNothing (s : Session) : Prop where
  liveTexts : s.store.ledger.liveTexts.toNat = s.textsOut
  liveVectors : s.store.ledger.liveVectors.toNat = s.vectorsOut
  fewerFrees : s.store.ledger.textFrees ≤ s.store.ledger.textAllocs
  fewerTransfers : s.store.ledger.textTransfers ≤ s.store.ledger.textAllocs - s.store.ledger.textFrees
  fewerVectorFrees : s.store.ledger.vectorFrees ≤ s.store.ledger.vectorAllocs

namespace Session.Counted

variable {s₀ s : Session}

theorem of_differences
    (texts : (s.store.ledger.textAllocs.toNat : Int) - s.store.ledger.textFrees.toNat -
      s.store.ledger.textTransfers.toNat = s.textsOut - s₀.textsOut)
    (vectors : (s.store.ledger.vectorAllocs.toNat : Int) - s.store.ledger.vectorFrees.toNat =
      s.vectorsOut - s₀.vectorsOut) : Counted s₀ s := by
  have liveTexts := s.store.ledger.toNat_liveTexts
  have liveVectors := s.store.ledger.toNat_liveVectors
  simp only [Ledger.read] at liveTexts liveVectors
  exact ⟨texts, vectors, by omega, by omega⟩

theorem fromNothing (counted : Counted s₀ s) (noTexts : s₀.textsOut = 0) (noVectors : s₀.vectorsOut = 0) :
    s.CountedFromNothing := by
  obtain ⟨texts, vectors, liveTexts, liveVectors⟩ := counted
  rw [noTexts] at texts liveTexts
  rw [noVectors] at vectors liveVectors
  have fewer : s.store.ledger.textFrees ≤ s.store.ledger.textAllocs := by
    rw [UInt64.le_iff_toNat_le]; omega
  refine ⟨by omega, by omega, fewer, ?_, ?_⟩
  · rw [UInt64.le_iff_toNat_le, UInt64.toNat_sub_of_le _ _ fewer]
    omega
  · rw [UInt64.le_iff_toNat_le]
    omega

end Session.Counted

namespace Plain

theorem run_append (wire : Wire) (ops ops' : List Op) : ∀ p : Plain,
    (p.run wire (ops ++ ops')).2 = ((p.run wire ops).2.run wire ops').2 := by
  induction ops with
  | nil => intro p; rfl
  | cons op ops ih => intro p; exact ih _

theorem deeds_of_reset (wire : Wire) (ops : List Op) (p : Plain) :
    (p.run wire (ops ++ [.resetLedger])).2.deeds = [] := by
  rw [run_append]; rfl

end Plain

/-- The deeds since the ledger was empty explain the ledger's differences. -/
theorem Represents.counted {s₀ s : Session} {p₀ p : Plain} (rep₀ : Represents s₀ s₀.store.world p₀)
    (rep : Represents s s.store.world p) (worth : ∀ c, p.worth c = p₀.worth c + Deed.worths c p.deeds)
    (countable : Deed.Countable p.deeds) : s₀.Counted s := by
  have texts := worth ⟨1, 0, 0⟩
  have vectors := worth ⟨0, 1, 0⟩
  rw [← rep.textsOut_eq, ← rep₀.textsOut_eq, Deed.worths_loose] at texts
  rw [← rep.vectorsOut_eq, ← rep₀.vectorsOut_eq, Deed.worths_vectors] at vectors
  have counts (c : Counter) : (s.store.ledger.read c).toNat = c.recorded p.deeds := by
    rw [show s.store.ledger = .ofDeeds p.deeds from rep.ledger]
    exact Ledger.toNat_read_ofDeeds (countable.few c)
  rw [← counts, ← counts, ← counts] at texts
  rw [← counts, ← counts] at vectors
  exact .of_differences (sub_eq_of_eq_add' texts).symm (sub_eq_of_eq_add' vectors).symm

/-- The live counts are exact, also across resets: `before` ends with the last reset, or is empty if there
    was none, and `since` has no further one. -/
theorem live_counts_exact (a : Allocator) (settings : Settings) (before since : List Op)
    (cut : before = [] ∨ ∃ earlier, before = earlier ++ [.resetLedger]) (noReset : .resetLedger ∉ since)
    (countable : Deed.Countable ({ Plain.start with settings }.run .words (before ++ since)).2.deeds) :
    ∃ answers₀ s₀ answers s, (Session.startOn (.fresh a settings)).run before = .ok (answers₀, s₀) ∧
      s₀.run since = .ok (answers, s) ∧ s₀.Counted s ∧ (before = [] → s.CountedFromNothing) := by
  obtain ⟨s₀, run₀, rep₀⟩ := start_represents a settings before
  obtain ⟨s, run, rep⟩ := run_represents since rep₀
  obtain ⟨ds, deeds, worth⟩ :=
    Plain.run_balance .words since (p := ({ Plain.start with settings }.run .words before).2) noReset
  have nothing : ({ Plain.start with settings }.run .words before).2.deeds = [] := by
    rcases cut with rfl | ⟨earlier, rfl⟩
    · rfl
    · exact Plain.deeds_of_reset ..
  rw [nothing, List.nil_append] at deeds
  rw [Plain.run_append] at countable
  subst deeds
  have counted := Represents.counted rep₀ rep worth countable
  refine ⟨_, s₀, _, s, run₀, run, counted, ?_⟩
  intro fromStart
  subst fromStart
  cases run₀
  exact counted.fromNothing rfl rfl

/-- For example, of two texts that were there at the reset one is given back: there is one less than there
    was, and the ledger shows none. -/
theorem live_counts_after_reset :
    ∃ answers₀ s₀ answers s, (Session.startOn (.fresh .growing .initial)).run [.newText, .newText, .resetLedger] =
        .ok (answers₀, s₀) ∧ s₀.run [.dropText 0] = .ok (answers, s) ∧
      s₀.textsOut = 2 ∧ s.textsOut = 1 ∧ (s.store.ledger.liveTexts.toNat : Int) = 0 := by
  obtain ⟨answers₀, s₀, answers, s, run₀, run, counted, -⟩ :=
    live_counts_exact .growing .initial [.newText, .newText, .resetLedger] [.dropText 0]
      (.inr ⟨[.newText, .newText], rfl⟩) (by simp)
      ⟨by decide, by decide, by decide, by decide, by decide, by decide⟩
  cases run₀
  cases run
  exact ⟨_, _, _, _, rfl, rfl, rfl, rfl, counted.liveTexts⟩

end Custody
