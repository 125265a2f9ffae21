/-
  Custody.Proofs.Adoptions — an owner gives back what it adopted, once, whatever its type is.

  An owner knows its type by a name and by what it can ask of it (`Ask`). What owners ask for, and in which
  order, is the same for every type (`Hands.step_eq`), so that a type which only writes down what is given
  back tells it of all of them (`Watch`). By that, for each handle: what was adopted was given back, is owned,
  or was let go of (`Books.Agree`).
-/
import Custody.Owner.Watch
import Custody.Proofs.Totals

namespace Custody

/-! ## What owners ask of their type -/

inductive Ask where
  | say (r : LogRecord)
  | free (h : Handle)

namespace Ask

/-- The handle to be given back, if that is what is asked. -/
def freed? : Ask → Option Handle
  | say _ => none
  | free h => some h

/-- All handles to be given back. -/
def frees (asks : List Ask) : List Handle := asks.filterMap freed?

@[simp] theorem frees_nil : frees [] = [] := rfl
@[simp] theorem frees_say (r : LogRecord) (asks : List Ask) : frees (.say r :: asks) = frees asks := rfl
@[simp] theorem frees_free (h : Handle) (asks : List Ask) : frees (.free h :: asks) = h :: frees asks := rfl

@[simp] theorem frees_append (asks asks' : List Ask) : frees (asks ++ asks') = frees asks ++ frees asks' :=
  List.filterMap_append

end Ask

section
variable {m : Type → Type} [Monad m]

/-- The type does what it is asked for, one after the other. -/
def OpaqueType.serve (T : OpaqueType m) : List Ask → m Unit
  | [] => pure ()
  | .say r :: asks => do
    T.say r
    T.serve asks
  | .free h :: asks => do
    T.free h
    T.serve asks

theorem OpaqueType.serve_append [LawfulMonad m] (T : OpaqueType m) (asks' : List Ask) : ∀ asks : List Ask,
    T.serve (asks ++ asks') = (do T.serve asks; T.serve asks')
  | [] => by simp [serve]
  | .say r :: asks => by simp [serve, serve_append T asks' asks]
  | .free h :: asks => by simp [serve, serve_append T asks' asks]

namespace Owner

/-- What an owner asks for when it is dropped. -/
def parting (name : String) (o : Owner) : List Ask :=
  if o.ownsMemory then [.say (.freeing name o.handle), .free o.handle] else []

theorem drop_eq [LawfulMonad m] (T : OpaqueType m) (o : Owner) : o.drop T = T.serve (o.parting T.name) := by
  unfold drop parting
  split <;> simp [OpaqueType.serve]

theorem release_eq [LawfulMonad m] (T : OpaqueType m) (o : Owner) : o.release T =
    (do T.serve [.say (.released T.name o.handle)]; pure o.handle) := by
  simp [release, drop, OpaqueType.serve]

end Owner

/-! ## Owners of any type -/

/-- Owners, and the handles that owners let go of. -/
structure Hands where
  owners : Slots Owner
  released : Slots Handle

namespace Hands

def empty : Hands := ⟨.empty, .empty⟩

/-- A step on the owner of a slot, which keeps it. -/
def peek (w : Hands) (i : Nat) (f : Owner → Watch.Answer) : m (Watch.Answer × Hands) :=
  match w.owners.get? i with
  | none => pure (.emptySlot, w)
  | some o => pure (f o, w)

/-- The steps of a watch, for owners of type `T`. -/
def step (T : OpaqueType m) (w : Hands) : Watch.Op → m (Watch.Answer × Hands)
  | .adopt address =>
    match Handle.ofAddress? address with
    | none => pure (.adopted none, w)
    | some h => pure (.adopted (some w.owners.next), { w with owners := w.owners.add (.adopt h) })
  | .adoptReleased i =>
    match w.released.get? i with
    | none => pure (.emptySlot, w)
    | some h =>
      pure (.adopted (some w.owners.next),
        { owners := w.owners.add (.adopt h), released := w.released.clear i })
  | .release i =>
    match w.owners.get? i with
    | none => pure (.emptySlot, w)
    | some o => do
      let h ← o.release T
      pure (.released w.released.next h, { owners := w.owners.clear i, released := w.released.add h })
  | .drop i =>
    match w.owners.get? i with
    | none => pure (.emptySlot, w)
    | some o => do
      o.drop T
      pure (.done, { w with owners := w.owners.clear i })
  | .owns i => w.peek i fun o => .truth o.ownsMemory
  | .borrow i => w.peek i fun o => Watch.lent o o.borrow
  | .borrowMut i => w.peek i fun o => Watch.lent o o.borrowMut.asShared

def run (T : OpaqueType m) (w : Hands) : List Watch.Op → m (List Watch.Answer × Hands)
  | [] => pure ([], w)
  | op :: rest => do
    let (answer, w) ← w.step T op
    let (answers, w) ← w.run T rest
    pure (answer :: answers, w)

end Hands

end

/-! ## The watch sees what all types see -/

namespace Watch

def hands (w : Watch) : Hands := ⟨w.owners, w.released⟩

/-- Operations one after the other, with their answers. -/
def run (w : Watch) : List Op → List Answer × Watch
  | [] => ([], w)
  | op :: rest =>
    let (answer, w) := w.step op
    let (answers, w) := w.run rest
    (answer :: answers, w)

/-- What a step asks of a type of that name. -/
def asks (name : String) (w : Watch) : Op → List Ask
  | .release i => ((w.owners.get? i).map fun o => [Ask.say (.released name o.handle)]).getD []
  | .drop i => ((w.owners.get? i).map (Owner.parting name)).getD []
  | _ => []

def asksAlong (name : String) (w : Watch) : List Op → List Ask
  | [] => []
  | op :: rest => w.asks name op ++ (w.step op).2.asksAlong name rest

/-! ### Single steps -/

section
variable {w : Watch} {i : Nat} {o : Owner} (at_i : w.owners.get? i = some o)

include at_i

theorem step_release : w.step (.release i) = (.released w.released.next o.handle,
    { owners := w.owners.clear i, released := w.released.add o.handle, freed := w.freed }) := by
  simp only [step, at_i]
  rfl

theorem step_drop (owns : o.ownsMemory = true) :
    w.step (.drop i) = (.done, { w with owners := w.owners.clear i, freed := w.freed ++ [o.handle] }) := by
  simp only [step, at_i, Owner.drop, owns, if_true]
  rfl

theorem step_drop_idle (idle : o.ownsMemory = false) :
    w.step (.drop i) = (.done, { w with owners := w.owners.clear i }) := by
  simp only [step, at_i, Owner.drop, idle, if_false, Bool.false_eq_true]
  rfl

end

/-- What is given back is what was asked to be given back. -/
theorem freed_step (name : String) (w : Watch) (op : Op) :
    (w.step op).2.freed = w.freed ++ Ask.frees (w.asks name op) := by
  cases op with
  | adopt address =>
    simp only [step, asks]
    cases Handle.ofAddress? address <;> simp
  | adoptReleased i =>
    simp only [step, asks]
    cases w.released.get? i <;> simp
  | release i =>
    cases at_i : w.owners.get? i with
    | none => simp [step, asks, at_i]
    | some o => simp [step_release at_i, asks, at_i]
  | drop i =>
    cases at_i : w.owners.get? i with
    | none => simp [step, asks, at_i]
    | some o =>
      by_cases owns : o.ownsMemory = true
      · simp [step_drop at_i owns, asks, at_i, Owner.parting, owns]
      · rw [Bool.not_eq_true] at owns
        simp [step_drop_idle at_i owns, asks, at_i, Owner.parting, owns]
  | owns i | borrow i | borrowMut i =>
    simp only [step, peek, asks]
    cases w.owners.get? i <;> simp

theorem freed_run (name : String) (ops : List Op) : ∀ w : Watch,
    (w.run ops).2.freed = w.freed ++ Ask.frees (w.asksAlong name ops) := by
  induction ops with
  | nil => intro w; simp [run, asksAlong]
  | cons op ops ih =>
    intro w
    rw [run, asksAlong, Ask.frees_append, ← List.append_assoc, ← freed_step]
    exact ih _

end Watch

namespace Hands

variable {m : Type → Type} [Monad m] [LawfulMonad m] (T : OpaqueType m)

/-- A step over any type asks of it what the watch can tell, and nothing else. -/
theorem step_eq (w : Watch) (op : Watch.Op) : w.hands.step T op =
    (do T.serve (w.asks T.name op); pure ((w.step op).1, (w.step op).2.hands)) := by
  cases op with
  | adopt address =>
    simp only [step, Watch.step, Watch.asks, OpaqueType.serve, pure_bind]
    cases Handle.ofAddress? address <;> rfl
  | adoptReleased i =>
    simp only [step, Watch.step, Watch.asks, OpaqueType.serve, pure_bind, Watch.hands]
    cases w.released.get? i <;> rfl
  | release i =>
    cases at_i : w.owners.get? i with
    | none => simp [step, Watch.step, Watch.asks, Watch.hands, at_i, OpaqueType.serve]
    | some o => simp [step, Watch.step_release at_i, Watch.asks, Watch.hands, at_i, Owner.release_eq]
  | drop i =>
    cases at_i : w.owners.get? i with
    | none => simp [step, Watch.step, Watch.asks, Watch.hands, at_i, OpaqueType.serve]
    | some o =>
      have after : w.step (.drop i) =
          (.done, { (w.step (.drop i)).2 with owners := w.owners.clear i, released := w.released }) := by
        by_cases owns : o.ownsMemory = true
        · rw [Watch.step_drop at_i owns]
        · rw [Watch.step_drop_idle at_i (Bool.not_eq_true _ ▸ owns)]
      rw [after]
      simp [step, Watch.asks, Watch.hands, at_i, Owner.drop_eq]
  | owns i | borrow i | borrowMut i =>
    simp only [step, peek, Watch.step, Watch.peek, Watch.asks, OpaqueType.serve, pure_bind, Watch.hands]
    cases w.owners.get? i <;> rfl

theorem run_eq (ops : List Watch.Op) : ∀ w : Watch, w.hands.run T ops =
    (do T.serve (w.asksAlong T.name ops); pure ((w.run ops).1, (w.run ops).2.hands)) := by
  induction ops with
  | nil => intro w; simp [run, Watch.run, Watch.asksAlong, OpaqueType.serve]
  | cons op ops ih =>
    intro w
    rw [run, step_eq]
    simp only [bind_assoc, pure_bind, ih, Watch.asksAlong, OpaqueType.serve_append, Watch.run]

end Hands

/-! ## The books -/

/-- What a consumer can tell of its owners: the handles that they adopted, the first owner's first, and
    the handles that owners let go of, in the order of their slots. -/
structure Books where
  adopted : List Handle
  released : List Handle

namespace Books

def empty : Books := ⟨[], []⟩

/-- Enters an operation with its answer. -/
def enter (b : Books) : Watch.Op → Watch.Answer → Books
  | .adopt address, .adopted (some _) => { b with adopted := b.adopted ++ (Handle.ofAddress? address).toList }
  | .adoptReleased i, .adopted (some _) => { b with adopted := b.adopted ++ b.released[i]?.toList }
  | .release _, .released _ h => { b with released := b.released ++ [h] }
  | _, _ => b

def enterAll (b : Books) : List Watch.Op → List Watch.Answer → Books
  | op :: ops, answer :: answers => (b.enter op answer).enterAll ops answers
  | _, _ => b

end Books

namespace Watch

/-- How many owners of a handle there are. -/
def owning (w : Watch) (h : Handle) : Nat := w.owners.total fun o => if o.handle = h then 1 else 0

/-- The books tell which handle is whose, and they balance. -/
structure Kept (w : Watch) (b : Books) : Prop where
  next : w.owners.next = b.adopted.length
  nextReleased : w.released.next = b.released.length
  owner : ∀ i o, w.owners.get? i = some o → o.ownsMemory = true ∧ b.adopted[i]? = some o.handle
  letGo : ∀ i h, w.released.get? i = some h → b.released[i]? = some h
  balance : ∀ h, b.adopted.count h = w.freed.count h + w.owning h + b.released.count h

theorem kept_empty : empty.Kept .empty where
  next := rfl
  nextReleased := rfl
  owner i o at_i := by rw [empty, Slots.get?_empty] at at_i; cases at_i
  letGo i h at_i := by rw [empty, Slots.get?_empty] at at_i; cases at_i
  balance h := by simp [Books.empty, empty, owning, Slots.total_of_none, Slots.get?_empty]

namespace Kept

variable {w : Watch} {b : Books} (kept : w.Kept b)

include kept

/-- A handle is adopted by an owner that is new. -/
theorem adopt (h : Handle) :
    Kept { w with owners := w.owners.add (.adopt h) } { b with adopted := b.adopted ++ [h] } where
  next := by simp [Slots.next_add, kept.next]
  nextReleased := kept.nextReleased
  owner i o at_i := by
    rw [Slots.get?_add] at at_i
    by_cases new : i = w.owners.next
    · rw [if_pos new] at at_i
      obtain rfl := Option.some.inj at_i
      rw [new, kept.next]
      exact ⟨rfl, by simp [Owner.adopt]⟩
    · rw [if_neg new] at at_i
      obtain ⟨owns, adopted⟩ := kept.owner i o at_i
      exact ⟨owns, by rw [List.getElem?_append_left (List.getElem?_eq_some_iff.mp adopted).1, adopted]⟩
  letGo := kept.letGo
  balance g := by
    have := kept.balance g
    simp only [owning, Slots.total_add, List.count_append, List.count_singleton, Owner.adopt] at this ⊢
    by_cases same : h = g <;> simp [same] <;> omega

/-- A released handle leaves its slot when it is adopted again; the books still know it. -/
theorem takeReleased (i : Nat) : Kept { w with released := w.released.clear i } b where
  next := kept.next
  nextReleased := by simp [kept.nextReleased]
  owner := kept.owner
  letGo j h at_j := by
    rw [Slots.get?_clear] at at_j
    split at at_j
    · cases at_j
    · exact kept.letGo j h at_j
  balance := kept.balance

section
variable {i : Nat} {o : Owner} (at_i : w.owners.get? i = some o)

omit kept in
theorem owning_clear (at_i : w.owners.get? i = some o) (h : Handle) :
    w.owning h = (w.owners.clear i).total (fun o => if o.handle = h then 1 else 0) + if o.handle = h then 1 else 0 :=
  (Slots.total_clear _ at_i).symm

include at_i

/-- An owner whose handle was given back ends. -/
theorem drop : Kept { w with owners := w.owners.clear i, freed := w.freed ++ [o.handle] } b where
  next := by simp [kept.next]
  nextReleased := kept.nextReleased
  owner j o' at_j := by
    rw [Slots.get?_clear] at at_j
    split at at_j
    · cases at_j
    · exact kept.owner j o' at_j
  letGo := kept.letGo
  balance h := by
    have := kept.balance h
    rw [owning_clear at_i] at this
    simp only [owning, List.count_append, List.count_singleton, beq_iff_eq] at this ⊢
    omega

/-- An owner that let go of its handle ends too. -/
theorem release : Kept { owners := w.owners.clear i, released := w.released.add o.handle, freed := w.freed }
    { b with released := b.released ++ [o.handle] } where
  next := by simp [kept.next]
  nextReleased := by simp [kept.nextReleased]
  owner j o' at_j := by
    rw [Slots.get?_clear] at at_j
    split at at_j
    · cases at_j
    · exact kept.owner j o' at_j
  letGo j h at_j := by
    rw [Slots.get?_add] at at_j
    by_cases new : j = w.released.next
    · rw [if_pos new] at at_j
      rw [new, kept.nextReleased, ← Option.some.inj at_j]
      simp
    · rw [if_neg new] at at_j
      have old := kept.letGo j h at_j
      rw [List.getElem?_append_left (List.getElem?_eq_some_iff.mp old).1, old]
  balance h := by
    have := kept.balance h
    rw [owning_clear at_i] at this
    simp only [owning, List.count_append, List.count_singleton, beq_iff_eq] at this ⊢
    omega

end

/-- Every step keeps the books. -/
theorem step (op : Op) : Kept (w.step op).2 (b.enter op (w.step op).1) := by
  cases op with
  | adopt address =>
    simp only [Watch.step]
    cases h : Handle.ofAddress? address with
    | none => exact kept
    | some handle => simpa [Books.enter, h] using kept.adopt handle
  | adoptReleased i =>
    simp only [Watch.step]
    cases at_i : w.released.get? i with
    | none => exact kept
    | some h =>
      have known := kept.letGo i h at_i
      simpa [Books.enter, known] using (kept.takeReleased i).adopt h
  | release i =>
    cases at_i : w.owners.get? i with
    | none =>
      have refused : w.step (.release i) = (.emptySlot, w) := by simp [Watch.step, at_i]
      rw [refused]
      exact kept
    | some o =>
      rw [step_release at_i]
      exact kept.release at_i
  | drop i =>
    cases at_i : w.owners.get? i with
    | none =>
      have refused : w.step (.drop i) = (.emptySlot, w) := by simp [Watch.step, at_i]
      rw [refused]
      exact kept
    | some o =>
      rw [step_drop at_i (kept.owner i o at_i).1]
      exact kept.drop at_i
  | owns i | borrow i | borrowMut i =>
    simp only [Watch.step, peek]
    cases w.owners.get? i <;> exact kept

end Kept

theorem run_kept (ops : List Op) : ∀ {w : Watch} {b : Books}, w.Kept b →
    Kept (w.run ops).2 (b.enterAll ops (w.run ops).1) := by
  induction ops with
  | nil => intro w b kept; exact kept
  | cons op ops ih => intro w b kept; exact ih (kept.step op)

/-! ### The end -/

/-- Drops of the slots' owners. -/
def drops (slots : List Nat) : List Op := slots.map .drop

theorem get?_step_drop (w : Watch) (i j : Nat) :
    (w.step (.drop i)).2.owners.get? j = if i = j then none else w.owners.get? j := by
  cases at_i : w.owners.get? i with
  | none =>
    have refused : w.step (.drop i) = (.emptySlot, w) := by simp [step, at_i]
    rw [refused]
    split
    · rename_i same
      rw [← same, at_i]
    · rfl
  | some o =>
    have after : (w.step (.drop i)).2.owners = w.owners.clear i := by
      simp only [step, at_i]
      rfl
    rw [after, Slots.get?_clear]

theorem get?_run_drops (slots : List Nat) (j : Nat) : ∀ w : Watch,
    (w.run (drops slots)).2.owners.get? j = if j ∈ slots then none else w.owners.get? j := by
  induction slots with
  | nil => intro w; rfl
  | cons i slots ih =>
    intro w
    refine (ih (w.step (.drop i)).2).trans ?_
    rw [get?_step_drop]
    by_cases first : i = j <;> by_cases later : j ∈ slots <;> simp [first, later, Ne.symm]

theorem close_eq (w : Watch) : w.close = (w.run (drops (w.owners.entries.map Prod.fst))).2 := by
  have folded (entries : List (Nat × Owner)) : ∀ w : Watch,
      entries.foldl (fun w e => (w.step (.drop e.1)).2) w = (w.run (drops (entries.map Prod.fst))).2 := by
    induction entries with
    | nil => intro w; rfl
    | cons e entries ih => intro w; exact ih (w.step (.drop e.1)).2
  exact folded w.owners.entries w

/-- At the end nobody owns anything. -/
theorem owning_close (w : Watch) (h : Handle) : w.close.owning h = 0 := by
  refine Slots.total_of_none _ _ fun j => ?_
  rw [close_eq, get?_run_drops]
  split
  · rfl
  · rename_i left
    cases at_j : w.owners.get? j with
    | none => rfl
    | some o => exact absurd (List.mem_map_of_mem ((Slots.mem_entries ..).mpr at_j)) left

theorem enterAll_drops (b : Books) (slots : List Nat) : ∀ w : Watch,
    b.enterAll (drops slots) (w.run (drops slots)).1 = b := by
  induction slots with
  | nil => intro w; rfl
  | cons i slots ih => intro w; exact ih (w.step (.drop i)).2

theorem Kept.close {w : Watch} {b : Books} (kept : w.Kept b) : w.close.Kept b := by
  have := run_kept (drops (w.owners.entries.map Prod.fst)) kept
  rwa [enterAll_drops, ← close_eq] at this

/-- The owners that are left are dropped. -/
def ending (w : Watch) : List Op := drops (w.owners.entries.map Prod.fst)

/-- What is true of owners of type `T` in a state that the books tell of, whatever is done next. -/
structure Fair {m : Type → Type} [Monad m] (T : OpaqueType m) (w : Watch) (b : Books) : Prop where
  asks : ∀ op, w.hands.step T op = (do T.serve (w.asks T.name op); pure ((w.step op).1, (w.step op).2.hands))
  /-- A drop of an owner asks the type to free its handle, once, and nothing else asks for that. -/
  frees : ∀ op, Ask.frees (w.asks T.name op) = match op with
    | .drop i => ((w.owners.get? i).map Owner.handle).toList
    | _ => []
  /-- An owner owns the handle that it adopted, and so do its loans show it. -/
  owner : ∀ i o, w.owners.get? i = some o → o.ownsMemory = true ∧ b.adopted[i]? = some o.handle ∧
    o.borrow.place = .whole o.handle ∧ o.borrowMut.place = .whole o.handle ∧ o.borrowMut.asShared = o.borrow ∧
      w.step (.owns i) = (.truth true, w) ∧ w.step (.borrow i) = (.loan o.handle true, w) ∧
        w.step (.borrowMut i) = (.loan o.handle true, w)
  /-- There is no owner of the null address. -/
  null : w.step (.adopt 0) = (.adopted none, w)
  balance : ∀ h, b.adopted.count h = w.freed.count h + w.owning h + b.released.count h
  /-- Once the owners that are left were dropped, what was not let go of was given back. -/
  ended : w.hands.run T w.ending = (do
      T.serve (w.asksAlong T.name w.ending)
      pure ((w.run w.ending).1, w.close.hands)) ∧
    ∀ h, (w.freed ++ Ask.frees (w.asksAlong T.name w.ending)).count h = b.adopted.count h - b.released.count h

theorem Kept.fair {m : Type → Type} [Monad m] [LawfulMonad m] (T : OpaqueType m) {w : Watch} {b : Books}
    (kept : w.Kept b) : w.Fair T b where
  asks := Hands.step_eq T w
  frees op := by
    cases op with
    | release i => cases at_i : w.owners.get? i <;> simp [asks, at_i]
    | drop i =>
      cases at_i : w.owners.get? i with
      | none => simp [asks, at_i]
      | some o => simp [asks, at_i, Owner.parting, (kept.owner i o at_i).1]
    | _ => rfl
  owner i o at_i := by
    obtain ⟨owns, adopted⟩ := kept.owner i o at_i
    refine ⟨owns, adopted, rfl, rfl, rfl, ?_, ?_, ?_⟩
    · simp [Watch.step, peek, at_i, owns]
    · simp [Watch.step, peek, at_i, lent, Owner.borrow]
    · simp [Watch.step, peek, at_i, lent, Owner.borrowMut, ExclusiveLoan.asShared]
  null := rfl
  balance := kept.balance
  ended := by
    refine ⟨?_, fun h => ?_⟩
    · rw [close_eq]
      exact Hands.run_eq T w.ending w
    · have balance := kept.close.balance h
      have nobody := owning_close w h
      have freed : w.close.freed = w.freed ++ Ask.frees (w.asksAlong T.name w.ending) := by
        rw [close_eq]
        exact freed_run T.name w.ending w
      rw [← freed]
      omega

end Watch

/-- Operations in any order on owners of any type: the type was asked to free what the watch notes, and
    nothing more, and at the end the books balance. -/
theorem owners_free_once {m : Type → Type} [Monad m] [LawfulMonad m] (T : OpaqueType m) (ops : List Watch.Op) :
    ∃ answers w, Watch.empty.run ops = (answers, w) ∧
      Hands.empty.run T ops = (do T.serve (Watch.empty.asksAlong T.name ops); pure (answers, w.hands)) ∧
        Ask.frees (Watch.empty.asksAlong T.name ops) = w.freed ∧ w.Fair T (Books.empty.enterAll ops answers) := by
  have kept := Watch.run_kept ops Watch.kept_empty
  refine ⟨_, _, rfl, Hands.run_eq T ops .empty, ?_, kept.fair T⟩
  rw [Watch.freed_run T.name]
  rfl

/-- For example, of two owners of one address the second is dropped, and the first lets go of its handle to
    a third: that one will give it back. -/
theorem owners_free_once_twice_adopted :
    ∃ w, Watch.empty.run [.adopt 7, .adopt 7, .adopt 0, .release 0, .adoptReleased 0, .drop 1] =
        ([.adopted (some 0), .adopted (some 1), .adopted none, .released 0 ⟨7, by decide⟩, .adopted (some 2),
          .done], w) ∧
      w.freed = [⟨7, by decide⟩] ∧ w.owning ⟨7, by decide⟩ = 1 := by
  obtain ⟨answers, w, run, -, frees, fair⟩ := owners_free_once Watch.type
    [.adopt 7, .adopt 7, .adopt 0, .release 0, .adoptReleased 0, .drop 1]
  obtain ⟨rfl, rfl⟩ := Prod.mk.inj run
  have balance : 3 = 1 + _ + 1 := fair.balance ⟨7, by decide⟩
  exact ⟨_, rfl, frees.symm, by omega⟩

end Custody
