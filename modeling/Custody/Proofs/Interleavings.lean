/-
  Custody.Proofs.Interleavings — operations on different values do not see each other.

  Two sides work on one session (`Session.weave`), in any order of turns, each on values of its own: those that
  it makes, and old ones that the other leaves alone. Slots are numbered in the order in which values are made,
  so each side goes by its own `Names`. However the turns fall, each side is told what it is told alone, its
  values end as they end alone, and the ledger ends with what both have done (`interleavings_agree`). So any two
  interleavings of the same operations agree.

  `Woven` is what one turn preserves: the session stands for what either side would have alone, and every slot
  that is new belongs to one of them.
-/
import Custody.Proofs.Balance
import Custody.Proofs.NamedSteps
import Custody.Proofs.Refinement

namespace Custody

/-! ## Turns -/

inductive Side where
  | left
  | right
  deriving DecidableEq

namespace Side

def other : Side → Side
  | left => right
  | right => left

@[simp] theorem other_other (d : Side) : d.other.other = d := by cases d <;> rfl

theorem other_ne (d : Side) : d.other ≠ d := by cases d <;> decide

theorem eq_or_other (d d' : Side) : d' = d ∨ d' = d.other := by cases d <;> cases d' <;> decide

/-- What falls to one side. -/
def of {α : Type} (d : Side) (xs : List (Side × α)) : List α := (xs.filter (·.1 = d)).map Prod.snd

theorem of_cons_self {α : Type} (d : Side) (x : α) (xs : List (Side × α)) : d.of ((d, x) :: xs) = x :: d.of xs := by
  simp [of]

theorem of_cons_ne {α : Type} {d d' : Side} (ne : d' ≠ d) (x : α) (xs : List (Side × α)) :
    d.of ((d', x) :: xs) = d.of xs := by simp [of, ne]

end Side

/-- Two consumers at work on one session, by their turns. -/
def Session.weave (s : Session) (names : Side → Names) :
    List (Side × Op) → Except Fault (List (Side × Answer) × (Side → Names) × Session)
  | [] => .ok ([], names, s)
  | (d, op) :: rest => do
    let (answer, a, s) ← s.stepBy (names d) op
    let (answers, names, s) ← s.weave (Function.update names d a) rest
    .ok ((d, answer) :: answers, names, s)

/-! ## Operations on old slots -/

section
variable {a : Names}

/-- Where every slot is called what it is, the operation is what it is. -/
theorem Op.at_eq {op : Op} {n : Shelf → Nat}
    (same : ∀ q ∈ op.names, q.slot < a.next q.shelf ∧ a.find q = q) : op.at a n = op := by
  have slot (q : Holder) (mem : q ∈ op.names) : a.slot n q = q.slot := by
    simp [Names.slot, Names.place, same q mem]
  have owner (q : Holder) (mem : q ∈ op.names) (kind : q.shelf = .texts ∨ q.shelf = .owned) : a.owner n q = q := by
    simp [Names.owner, Names.place, same q mem, kind]
  cases op with
  | dropText i | releaseText i => rw [Op.at, owner ⟨.texts, i⟩ (by simp [names]) (.inl rfl)]; rfl
  | dropOwned i | releaseOwned i => rw [Op.at, owner ⟨.owned, i⟩ (by simp [names]) (.inr rfl)]; rfl
  | countDistinct slots =>
    have each : ∀ i ∈ slots, a.slot n ⟨.texts, i⟩ = i := fun i mem => slot ⟨.texts, i⟩ (by simp [names, mem])
    rw [Op.at, List.map_congr_left each, List.map_id']
  | _ => simp_all [Op.at, names]

/-- What was made keeps its name. -/
theorem Names.hear_found (op : Op) (y : Answer) {q : Holder} (made : q.slot < a.next q.shelf) :
    q.slot < (a.hear op y).2.next q.shelf ∧ (a.hear op y).2.find q = a.find q := by
  unfold hear
  split
  · exact a.found_add _ _ made
  · exact a.found_add _ _ made
  · exact ⟨made, rfl⟩

end

/-- Turns on old slots are the operations themselves, one after the other. -/
theorem Session.run_of_weave (turns : List (Side × Op)) : ∀ {s s' : Session} {names names' : Side → Names}
    {answers : List (Side × Answer)}, s.weave names turns = .ok (answers, names', s') →
      (∀ t ∈ turns, ∀ q ∈ t.2.names, q.slot < (names t.1).next q.shelf ∧ (names t.1).find q = q) →
        ∃ heard, s.run (turns.map Prod.snd) = .ok (heard, s') := by
  induction turns with
  | nil =>
    intro s s' names names' answers weave _
    cases weave
    exact ⟨[], rfl⟩
  | cons t turns ih =>
    obtain ⟨d, op⟩ := t
    intro s s' names names' answers weave old
    have here := Op.at_eq (n := s.nexts) (old (d, op) List.mem_cons_self)
    cases step : s.step op with
    | error fault => simp [Session.weave, stepBy, here, step, bind, Except.bind] at weave
    | ok r =>
      obtain ⟨y, s₁⟩ := r
      have later : ∀ t ∈ turns, ∀ q ∈ t.2.names,
          q.slot < (Function.update names d ((names d).hear op y).2 t.1).next q.shelf ∧
            (Function.update names d ((names d).hear op y).2 t.1).find q = q := by
        intro t mem q named
        obtain ⟨made, same⟩ := old t (List.mem_cons_of_mem _ mem) q named
        rcases d.eq_or_other t.1 with e | e
        · rw [e, Function.update_self]
          rw [e] at made same
          obtain ⟨made', kept⟩ := Names.hear_found op y made
          exact ⟨made', kept.trans same⟩
        · rw [e, Function.update_of_ne d.other_ne, ← e]
          exact ⟨made, same⟩
      cases rest : s₁.weave (Function.update names d ((names d).hear op y).2) turns with
      | error fault => simp [Session.weave, stepBy, here, step, rest, bind, Except.bind] at weave
      | ok r =>
        obtain ⟨answers', names'', s₂⟩ := r
        simp only [Session.weave, stepBy, here, step, rest, bind, Except.bind, Except.ok.injEq, Prod.mk.injEq] at weave
        obtain ⟨-, -, rfl⟩ := weave
        obtain ⟨heard, run⟩ := ih rest later
        refine ⟨y :: heard, ?_⟩
        simp only [List.map_cons, run, Session.run, step, bind, Except.bind]

/-- A slot of the consumer that it did not have when the next slots were `n₀`. -/
def Names.Since (a : Names) (n₀ : Shelf → Nat) (q : Holder) : Prop := n₀ q.shelf ≤ q.slot ∧ q.slot < a.next q.shelf

/-! ## What a turn preserves -/

section
variable (n₀ : Shelf → Nat) (ops : Side → List Op)

/-- A slot is for one side to use: it is new, or the other side does not name it. -/
def Side.Owns (d : Side) (q : Holder) : Prop := q.slot < n₀ q.shelf → ∀ op ∈ ops d.other, q ∉ op.names

variable (p₀ : Plain)

/-- The session `P` stands for what each side would have alone, by its names. -/
structure Woven (alone : Side → Plain) (names : Side → Names) (P : Plain) : Prop where
  matched : ∀ d, (names d).Match (d.Owns n₀ ops) (alone d) P
  later : ∀ k : Shelf, n₀ k ≤ (k.plain.of P).next
  later' : ∀ d k, n₀ k ≤ (names d).next k
  old : ∀ d q, q.slot < n₀ q.shelf → (names d).find q = q
  new : ∀ d q, (names d).Since n₀ q → ((names d).find q).shelf = q.shelf ∧ n₀ q.shelf ≤ ((names d).find q).slot
  single : ∀ d q d' q', (names d).Since n₀ q → (names d').Since n₀ q' → (names d).find q = (names d').find q' →
    d = d' ∧ q = q'
  covered : ∀ q, n₀ q.shelf ≤ q.slot → q.slot < (q.shelf.plain.of P).next →
    ∃ d q', (names d).Since n₀ q' ∧ (names d).find q' = q
  deeds : ∃ ds : Side → List Deed, (∀ d, (alone d).deeds = p₀.deeds ++ ds d) ∧
    P.deeds.Perm (p₀.deeds ++ ds .left ++ ds .right)

end

namespace Woven

variable {n₀ : Shelf → Nat} {ops : Side → List Op} {p₀ P : Plain} {alone : Side → Plain} {names : Side → Names}
  (w : Woven n₀ ops p₀ alone names P)

include w

/-- Every value is in a slot of its own kind. -/
theorem home (d : Side) {q : Holder} (made : q.slot < (names d).next q.shelf) :
    ((names d).find q).shelf = q.shelf := by
  by_cases old : q.slot < n₀ q.shelf
  · rw [w.old d q old]
  · exact (w.new d q ⟨by omega, made⟩).1

/-- No slot has two names, unless it is an old one. -/
theorem same_slot {d d' : Side} {q q' : Holder} (made : q.slot < (names d).next q.shelf)
    (made' : q'.slot < (names d').next q'.shelf) (same : (names d).find q = (names d').find q') :
    q = q' ∧ (d = d' ∨ q.slot < n₀ q.shelf) := by
  by_cases old : q.slot < n₀ q.shelf <;> by_cases old' : q'.slot < n₀ q'.shelf
  · rw [w.old d q old, w.old d' q' old'] at same
    exact ⟨same, .inr old⟩
  · have new := w.new d' q' ⟨by omega, made'⟩
    rw [← same, w.old d q old] at new
    rw [← new.1] at new
    omega
  · have new := w.new d q ⟨by omega, made⟩
    rw [same, w.old d' q' old'] at new
    rw [← new.1] at new
    omega
  · obtain ⟨side, slot⟩ := w.single d q d' q' ⟨by omega, made⟩ ⟨by omega, made'⟩ same
    exact ⟨slot, .inl side⟩

/-- What one side names is nothing that the other may use. -/
theorem distinct {d : Side} {op : Op} (turn : op ∈ ops d) {q q' : Holder} (mem : q ∈ op.names)
    (made : q.slot < (names d).next q.shelf) (own : d.other.Owns n₀ ops q')
    (made' : q'.slot < (names d.other).next q'.shelf) : (names d.other).find q' ≠ (names d).find q := by
  intro same
  obtain ⟨rfl, side | old⟩ := w.same_slot made' made same
  · exact d.other_ne side
  · exact own old op (by rwa [Side.other_other]) mem

section
variable {d : Side} {a : Names} {T : Holder → Prop} {p' P' : Plain}
  (st : Stepped (d.Owns n₀ ops) (names d) T (alone d) P a p' P')

include st

omit w in
theorem found (d' : Side) {q : Holder} (made : q.slot < (names d').next q.shelf) :
    q.slot < (Function.update names d a d').next q.shelf ∧
      (Function.update names d a d').find q = (names d').find q := by
  rcases d.eq_or_other d' with rfl | rfl
  · rw [Function.update_self]
    exact st.found made
  · rw [Function.update_of_ne d.other_ne]
    exact ⟨made, rfl⟩

omit w in
/-- What either side has a name for after a turn it had it for before, or it is what the turn has made. -/
theorem since {d' : Side} {q : Holder} (since : (Function.update names d a d').Since n₀ q) :
    ((names d').Since n₀ q ∧ (Function.update names d a d').find q = (names d').find q) ∨
      (d' = d ∧ q.slot = (names d).next q.shelf ∧
        (Function.update names d a d').find q = ⟨q.shelf, (q.shelf.plain.of P).next⟩) := by
  obtain ⟨late, made⟩ := since
  rcases d.eq_or_other d' with rfl | rfl
  · rw [Function.update_self] at made ⊢
    rcases st.old_or_new made with before | ⟨here, fresh⟩
    · exact .inl ⟨⟨late, before⟩, (st.found before).2⟩
    · exact .inr ⟨rfl, congrArg Holder.slot here, fresh⟩
  · rw [Function.update_of_ne d.other_ne] at made ⊢
    exact .inl ⟨⟨late, made⟩, rfl⟩

/-- After the turn of side `d`, the session stands for what both sides would have then. -/
theorem stepped (frame : ∀ q, d.other.Owns n₀ ops q → q.slot < (names d.other).next q.shelf →
      ¬ T ((names d.other).find q)) :
    Woven n₀ ops p₀ (Function.update alone d p') (Function.update names d a) P' := by
  constructor
  case matched =>
    intro d'
    rcases d.eq_or_other d' with rfl | rfl
    · rw [Function.update_self, Function.update_self]
      exact st.matched
    · rw [Function.update_of_ne d.other_ne, Function.update_of_ne d.other_ne]
      refine (w.matched d.other).of_frame st.nexts_le fun q own made => ?_
      exact st.frame _ ((w.matched d.other).inside q made) (frame q own made)
  case later => exact fun k => Nat.le_trans (w.later k) (st.nexts_le k)
  case later' =>
    intro d' k
    rcases d.eq_or_other d' with rfl | rfl
    · rw [Function.update_self]
      exact Nat.le_trans (w.later' _ k) (st.names_le k)
    · rw [Function.update_of_ne d.other_ne]
      exact w.later' _ k
  case old =>
    intro d' q old
    rw [(found st d' (Nat.lt_of_lt_of_le old (w.later' _ _))).2]
    exact w.old d' q old
  case new =>
    intro d' q late
    rcases since st late with ⟨before, same⟩ | ⟨-, -, fresh⟩
    · rw [same]
      exact w.new d' q before
    · rw [fresh]
      exact ⟨rfl, w.later q.shelf⟩
  case single =>
    intro d₁ q₁ d₂ q₂ late₁ late₂ same
    -- what the turn has made is in the session's next slot, which nothing was called before
    rcases since st late₁ with ⟨before₁, same₁⟩ | ⟨rfl, slot₁, fresh₁⟩ <;>
      rcases since st late₂ with ⟨before₂, same₂⟩ | ⟨rfl, slot₂, fresh₂⟩
    · rw [same₁, same₂] at same
      exact w.single d₁ q₁ d₂ q₂ before₁ before₂ same
    · rw [same₁, fresh₂] at same
      exact absurd same ((w.matched d₁).find_ne_next before₁.2 _)
    · rw [fresh₁, same₂] at same
      exact absurd same.symm ((w.matched d₂).find_ne_next before₂.2 _)
    · have shelf : q₁.shelf = q₂.shelf := (Holder.mk.inj (fresh₁.symm.trans (same.trans fresh₂))).1
      exact ⟨rfl, Holder.eq_of_parts shelf (by rw [slot₁, slot₂, shelf])⟩
  case covered =>
    intro q new made
    by_cases before : q.slot < (q.shelf.plain.of P).next
    · obtain ⟨d', q', ⟨late, made'⟩, same⟩ := w.covered q new before
      obtain ⟨made'', kept⟩ := found st d' made'
      exact ⟨d', q', ⟨late, made''⟩, kept.trans same⟩
    · obtain ⟨q', late, made', same⟩ := st.named made (by omega)
      exact ⟨d, q', ⟨Nat.le_trans (w.later' d _) late, by rwa [Function.update_self]⟩, by rwa [Function.update_self]⟩
  case deeds =>
    obtain ⟨ds, alone, both⟩ := w.deeds
    obtain ⟨done, here, there⟩ := st.deeds
    refine ⟨Function.update ds d (ds d ++ done), fun d' => ?_, ?_⟩
    · rcases d.eq_or_other d' with rfl | rfl
      · rw [Function.update_self, Function.update_self, here, alone, List.append_assoc]
      · rw [Function.update_of_ne d.other_ne, Function.update_of_ne d.other_ne, alone]
    · rw [there]
      refine (both.append_right done).trans (List.perm_iff_count.mpr fun x => ?_)
      cases d with
      | left =>
        simp [List.count_append]
        omega
      | right => simp [List.count_append]

end

/-- A turn of one side. -/
theorem turn {s : Session} (rep : Represents s s.store.world P) {d : Side} {op : Op} (turn : op ∈ ops d)
    (isLocal : op.Local) (own : ∀ q ∈ op.names, d.Owns n₀ ops q) :
    ∃ a s' P', s.stepBy (names d) op = .ok (((alone d).step .words op).1, a, s') ∧
      Represents s' s'.store.world P' ∧
        Woven n₀ ops p₀ (Function.update alone d ((alone d).step .words op).2) (Function.update names d a) P' := by
  have ready : (names d).Ready op (alone d) := fun q _ live => .inl (w.home d ((w.matched d).made live))
  obtain ⟨a, s', P', step, rep', st⟩ := (w.matched d).stepBy rep isLocal own ready
  refine ⟨a, s', P', step, rep', w.stepped st fun q' own' made' => ?_⟩
  rintro ⟨q, mem, live, same⟩
  exact w.distinct turn mem ((w.matched d).made live) own' made' same.symm

end Woven

/-! ## All turns -/

/-- The turns of two sides run, and preserve what one turn preserves. -/
theorem weave_woven {n₀ : Shelf → Nat} {ops : Side → List Op} {p₀ : Plain} (turns : List (Side × Op)) :
    ∀ {s : Session} {P : Plain} {alone : Side → Plain} {names : Side → Names}, Represents s s.store.world P →
      Woven n₀ ops p₀ alone names P → (∀ t ∈ turns, t.2 ∈ ops t.1 ∧ t.2.Local ∧ ∀ q ∈ t.2.names, t.1.Owns n₀ ops q) →
        ∃ answers names' s' P', s.weave names turns = .ok (answers, names', s') ∧
          (∀ d, d.of answers = ((alone d).run .words (d.of turns)).1) ∧ Represents s' s'.store.world P' ∧
            Woven n₀ ops p₀ (fun d => ((alone d).run .words (d.of turns)).2) names' P' := by
  induction turns with
  | nil => intro s P alone names rep w _; exact ⟨[], names, s, P, rfl, fun d => rfl, rep, w⟩
  | cons t turns ih =>
    obtain ⟨d, op⟩ := t
    intro s P alone names rep w allowed
    obtain ⟨turn, isLocal, own⟩ := allowed (d, op) List.mem_cons_self
    obtain ⟨a, s₁, P₁, step, rep, w⟩ := w.turn rep turn isLocal own
    obtain ⟨answers, names', s', P', run, told, rep, w⟩ := ih rep w fun t mem => allowed t (List.mem_cons_of_mem _ mem)
    -- the side whose turn it is goes on, and the other one is where it was
    have here : (alone d).run .words (d.of ((d, op) :: turns)) =
        (((alone d).step .words op).1 :: (((alone d).step .words op).2.run .words (d.of turns)).1,
          (((alone d).step .words op).2.run .words (d.of turns)).2) := by
      rw [Side.of_cons_self]
      rfl
    have there : d.other.of ((d, op) :: turns) = d.other.of turns := Side.of_cons_ne d.other_ne.symm ..
    refine ⟨(d, ((alone d).step .words op).1) :: answers, names', s', P', ?_, fun d' => ?_, rep, ?_⟩
    · simp only [Session.weave, step, run, bind, Except.bind]
    · rcases d.eq_or_other d' with rfl | rfl
      · rw [here, Side.of_cons_self, told, Function.update_self]
      · rw [there, Side.of_cons_ne d.other_ne.symm, told, Function.update_of_ne d.other_ne]
    · have same : (fun d' => ((alone d').run .words (d'.of ((d, op) :: turns))).2) =
          fun d' => ((Function.update alone d ((alone d).step .words op).2 d').run .words (d'.of turns)).2 := by
        funext d'
        rcases d.eq_or_other d' with rfl | rfl
        · rw [here, Function.update_self]
        · rw [there, Function.update_of_ne d.other_ne]
      rw [same]
      exact w

/-- Before the first turn. -/
theorem Woven.start {s : Session} {p : Plain} (rep : Represents s s.store.world p) (ops : Side → List Op) :
    Woven s.nexts ops p (fun _ => p) (fun _ => .own s) p where
  matched d := Names.own_match rep fun q late old => absurd old (Nat.not_lt.mpr late)
  later k := Nat.le_of_eq (rep.next k)
  later' _ _ := Nat.le_refl _
  old _ _ _ := rfl
  new _ _ since := absurd since.2 (Nat.not_lt.mpr since.1)
  single _ _ _ _ since _ _ := absurd since.2 (Nat.not_lt.mpr since.1)
  covered q late made := by
    have next := rep.next q.shelf
    simp only [Session.nexts] at late
    omega
  deeds := ⟨fun _ => [], by simp, by simp⟩

/-! ## Interleavings -/

/-- What the turns of two sides come to on session `s`, if alone they get the answers `told` and end in the
    sessions `alone`, and `l` is the ledger after both. -/
structure Session.Wove (s : Session) (ops : Side → List Op) (told : Side → List Answer) (alone : Side → Session)
    (l : Ledger) (answers : List (Side × Answer)) (names : Side → Names) (s' : Session) : Prop where
  told : ∀ d, d.of answers = told d
  /-- Each side has as many slots as it has alone … -/
  next : ∀ d, (names d).next = (alone d).nexts
  /-- … and in them what it has alone. -/
  contents : ∀ d q, q.slot < (alone d).nexts q.shelf → d.Owns s.nexts ops q →
    s'.object? ((names d).find q) = (alone d).object? q
  /-- An old slot is what it was … -/
  old : ∀ d q, q.slot < s.nexts q.shelf → (names d).find q = q
  /-- … there are no other slots … -/
  covered : ∀ q, q.slot < s'.nexts q.shelf → ∃ d q', q'.slot < (alone d).nexts q'.shelf ∧ d.Owns s.nexts ops q' ∧
    (names d).find q' = q
  /-- … and none that is new has two names. -/
  single : ∀ d q d' q', q.slot < (alone d).nexts q.shelf → q'.slot < (alone d').nexts q'.shelf →
    (names d).find q = (names d').find q' → q = q' ∧ (d = d' ∨ q.slot < s.nexts q.shelf)
  ledger : s'.store.ledger = l

section
variable {s : Session} {ops : Side → List Op}
  (disjoint : ∀ l ∈ ops .left, ∀ r ∈ ops .right, ∀ q ∈ l.names, q ∈ r.names → s.nexts q.shelf ≤ q.slot)

include disjoint

/-- What a side names it may use. -/
theorem Side.owns_names (d : Side) {op : Op} (mem : op ∈ ops d) : ∀ q ∈ op.names, d.Owns s.nexts ops q := by
  intro q named old op' mem' named'
  have shared : s.nexts q.shelf ≤ q.slot := by
    cases d with
    | left => exact disjoint op mem op' mem' q named named'
    | right => exact disjoint op' mem' op mem q named' named
  omega

/-- There is no slot that neither side may use. -/
theorem Side.exists_owns (q : Holder) : ∃ d : Side, d.Owns s.nexts ops q := by
  by_cases named : ∃ op ∈ ops .left, q ∈ op.names
  · obtain ⟨op, mem, named⟩ := named
    exact ⟨.left, Side.owns_names disjoint .left mem q named⟩
  · exact ⟨.right, fun _ op mem named' => named ⟨op, mem, named'⟩⟩

end

/-- What was woven, said of sessions. -/
theorem Woven.wove {s s' : Session} {ops : Side → List Op} {p P : Plain} {ps : Side → Plain} {alone : Side → Session}
    {names : Side → Names} {told : Side → List Answer} {answers : List (Side × Answer)} {ds : Side → List Deed}
    (disjoint : ∀ l ∈ ops .left, ∀ r ∈ ops .right, ∀ q ∈ l.names, q ∈ r.names → s.nexts q.shelf ≤ q.slot)
    (w : Woven s.nexts ops p ps names P) (rep : Represents s' s'.store.world P)
    (reps : ∀ d, Represents (alone d) (alone d).store.world (ps d)) (done : ∀ d, (ps d).deeds = p.deeds ++ ds d)
    (said : ∀ d, d.of answers = told d) :
    s.Wove ops told alone (.ofDeeds (p.deeds ++ ds .left ++ ds .right)) answers names s' := by
  have next (d : Side) (k : Shelf) : (names d).next k = (alone d).nexts k :=
    ((w.matched d).next k).trans ((reps d).next k).symm
  constructor
  case told => exact said
  case next => exact fun d => funext (next d)
  case contents =>
    intro d q made own
    rw [rep.object?_eq, (reps d).object?_eq]
    exact (w.matched d).same q own (by rwa [next])
  case old => exact w.old
  case covered =>
    intro q made
    rw [Session.nexts, rep.next] at made
    by_cases old : q.slot < s.nexts q.shelf
    · obtain ⟨d, own⟩ := Side.exists_owns disjoint q
      exact ⟨d, q, by rw [← next]; exact Nat.lt_of_lt_of_le old (w.later' d _), own, w.old d q old⟩
    · obtain ⟨d, q', since, same⟩ := w.covered q (by omega) made
      exact ⟨d, q', by rw [← next]; exact since.2, fun old' => absurd old' (Nat.not_lt.mpr since.1), same⟩
  case single =>
    intro d q d' q' made made' same
    exact w.same_slot (by rwa [next]) (by rwa [next]) same
  case ledger =>
    obtain ⟨ds', done', both⟩ := w.deeds
    have same : ds' = ds := funext fun d => List.append_cancel_left ((done' d).symm.trans (done d))
    rw [same] at both
    exact rep.ledger.trans (Ledger.ofDeeds_perm both)

/-- Two sides work on values of their own, in a session that operations led to. Whatever their turns, each side
    is told what it is told alone, has in its slots what it has alone, and the ledger is the same. Operations on slots
    that there are before may as well run as they are. -/
theorem interleavings_agree (a : Allocator) (settings : Settings) {before : List Op} {before' : List Answer}
    {s : Session} (reached : (Session.startOn (.fresh a settings)).run before = .ok (before', s)) (ops : Side → List Op)
    (isLocal : ∀ d, ∀ op ∈ ops d, op.Local)
    (disjoint : ∀ l ∈ ops .left, ∀ r ∈ ops .right, ∀ q ∈ l.names, q ∈ r.names → s.nexts q.shelf ≤ q.slot) :
    ∃ told alone l, (∀ d, s.run (ops d) = .ok (told d, alone d)) ∧
      ∀ turns : List (Side × Op), (∀ d, d.of turns = ops d) → ∃ answers names s',
        s.weave (fun _ => .own s) turns = .ok (answers, names, s') ∧ s.Wove ops told alone l answers names s' ∧
          ((∀ d, ∀ op ∈ ops d, ∀ q ∈ op.names, q.slot < s.nexts q.shelf) →
            ∃ heard, s.run (turns.map Prod.snd) = .ok (heard, s')) := by
  obtain ⟨s₀, run, rep⟩ := start_represents a settings before
  obtain ⟨-, rfl⟩ := Prod.mk.inj (Except.ok.inj (run.symm.trans reached))
  generalize ({ Plain.start with settings }.run .words before).2 = p at rep
  choose alone ran reps using fun d => run_represents (ops d) rep
  choose ds done _ using fun d => Plain.run_balance .words (ops d) (p := p) fun reset => isLocal d _ reset
  refine ⟨fun d => (p.run .words (ops d)).1, alone, .ofDeeds (p.deeds ++ ds .left ++ ds .right), ran,
    fun turns sides => ?_⟩
  have mem : ∀ t ∈ turns, t.2 ∈ ops t.1 := by
    intro t mem
    rw [← sides t.1]
    exact List.mem_map_of_mem (List.mem_filter.mpr ⟨mem, by simp⟩)
  obtain ⟨answers, names, s', P, weave, said, rep', w⟩ := weave_woven turns rep (.start rep ops) fun t ht =>
    ⟨mem t ht, isLocal t.1 _ (mem t ht), Side.owns_names disjoint t.1 (mem t ht)⟩
  simp only [sides] at said w
  refine ⟨answers, names, s', weave, w.wove disjoint rep' reps done said, fun old => ?_⟩
  exact Session.run_of_weave turns weave fun t ht q named => ⟨old t.1 t.2 (mem t ht) q named, rfl⟩

/-- For example, both sides have a text at slot `1` here, each one of its own, and either turn may come first. -/
theorem interleavings_agree_both_make : ∃ before' s,
    (Session.startOn (.fresh .growing .initial)).run [.textFrom "ab", .newVector .text] = .ok (before', s) ∧
      ∃ answers names s₁ answers' names' s₂,
        s.weave (fun _ => .own s) [(.left, .releaseText 0), (.left, .adoptText 0), (.left, .hashText 1),
          (.right, .newText), (.right, .pushText 0 1)] = .ok (answers, names, s₁) ∧
        s.weave (fun _ => .own s) [(.right, .newText), (.left, .releaseText 0), (.left, .adoptText 0),
          (.right, .pushText 0 1), (.left, .hashText 1)] = .ok (answers', names', s₂) ∧
        (∀ d : Side, d.of answers = d.of answers') ∧ s₁.store.ledger = s₂.store.ledger := by
  obtain ⟨s, run, rep⟩ := start_represents .growing .initial [.textFrom "ab", .newVector .text]
  have one : s.nexts .texts = 1 := rep.next .texts
  obtain ⟨told, alone, l, -, agree⟩ := interleavings_agree .growing .initial run
    (fun | .left => [.releaseText 0, .adoptText 0, .hashText 1] | .right => [.newText, .pushText 0 1])
    (by rintro (_ | _) op mem <;> simp at mem <;> rcases mem with rfl | rfl | rfl <;> trivial)
    (by simp [Op.names, one])
  obtain ⟨answers, names, s₁, weave, wove, -⟩ := agree
    [(.left, .releaseText 0), (.left, .adoptText 0), (.left, .hashText 1), (.right, .newText), (.right, .pushText 0 1)]
    (by rintro (_ | _) <;> rfl)
  obtain ⟨answers', names', s₂, weave', wove', -⟩ := agree
    [(.right, .newText), (.left, .releaseText 0), (.left, .adoptText 0), (.right, .pushText 0 1), (.left, .hashText 1)]
    (by rintro (_ | _) <;> rfl)
  exact ⟨_, s, run, answers, names, s₁, answers', names', s₂, weave, weave',
    fun d => (wove.told d).trans (wove'.told d).symm, wove.ledger.trans wove'.ledger.symm⟩

end Custody
