/-
  Custody.Proofs.Storage — the storage of a primitive vector shows what is fetched from it item by item.

  A slice is read from where the storage starts, as far as a length goes that was asked for separately. Items
  are fetched one at a time, by index or by a cursor from either end, and an index that is too large is found
  out. Both ways show the same values (`World.Stores`), which are the bits that were moved in.
-/
import Custody.Proofs.Faithful
import Custody.Proofs.Ideal

namespace Custody

/-- Every way to read the items of a primitive vector shows `xs`, and changes nothing. -/
structure World.Stores {p : Primitive} (w : World) (v : VectorOwner (.scalar p)) (xs : List p.Value) : Prop where
  storage : wp v.storage (fun ys w' => ys = xs ∧ w' = w) w
  len : wp v.len (fun n w' => n.toNat = xs.length ∧ w' = w) w
  /-- There is nothing at an index from the length on. -/
  get : ∀ i, wp (v.get i) (fun x w' => x = xs[i.toNat]? ∧ w' = w) w
  getMut : ∀ i, wp (v.getMut i) (fun x w' => x = xs[i.toNat]? ∧ w' = w) w
  itemAt : ∀ i, wp (v.itemAt i) (fun x w' =>
    x = (match xs[i.toNat]? with
      | some y => .ok y
      | none => .error ⟨i, UInt64.ofNat xs.length⟩) ∧ w' = w) w
  /-- A cursor finds an item by its index wherever it stands. -/
  cursorGet : ∀ (cs : Cursors) i c k, cs.get? i = some c →
    wp (Walk.step v cs ⟨i, .get k⟩) (fun r w' => r = (.item (.scalar p) xs[k.toNat]?, cs) ∧ w' = w) w
  forward : wp v.toList (fun ys w' => ys = xs ∧ w' = w) w
  backward : wp (do (← v.cursor).toListRev v.get (Element.scalar p).look) (fun ys w' => ys = xs.reverse ∧ w' = w) w
  view : wp (do return (← v.storageView, ← v.start, ← v.len, ← v.isEmpty)) (fun (view, start, len, isEmpty) w' =>
    view.start = some start ∧ view.len = len ∧ view.isEmpty = isEmpty ∧ (isEmpty ↔ xs = []) ∧ w' = w) w
  /-- Wherever the view of an empty vector starts, nothing is read there. -/
  unread : xs = [] → wp v.storageView (fun view w' =>
    (∀ start, VectorOwner.readView p { view with start } = pure []) ∧ w' = w) w

section
variable {w : World} {p : Primitive} {v : VectorOwner (.scalar p)} {xs : List p.Value}

/-- What is lent of a primitive vector is the value itself. -/
theorem Element.lends_scalar {x y : Option p.Value} (lends : Option.Rel ((Element.scalar p).Lends w) x y) :
    x = y := by
  cases lends with
  | none => rfl
  | some same => exact congrArg some same

theorem World.stores (live : w.find v.handle = some (.ofList (.scalar p) xs)) (few : xs.length < 2 ^ 64) :
    w.Stores v xs := by
  have count : Wire.words.count xs.length = xs.length := Wire.words_count few
  have empty : (UInt64.ofNat xs.length == 0) ↔ xs = [] := by
    rw [beq_iff_eq, ← UInt64.toNat_inj, show (UInt64.ofNat xs.length).toNat = xs.length from count]
    exact List.length_eq_zero_iff
  constructor
  case storage =>
    refine VectorOwner.wp_storage live ⟨?_, rfl⟩
    rw [count, List.take_length]
  case len => exact VectorOwner.wp_len live ⟨count, rfl⟩
  case get => exact fun i => VectorOwner.wp_get live fun x lends => ⟨Element.lends_scalar lends, rfl⟩
  case getMut => exact fun i => VectorOwner.wp_getMut live fun x lends => ⟨Element.lends_scalar lends, rfl⟩
  case itemAt =>
    intro i
    refine VectorOwner.wp_itemAt live (fun x y at_i lends => ⟨?_, rfl⟩) fun out => ⟨?_, rfl⟩
    · rw [at_i]
      exact congrArg Except.ok lends
    · rw [out]
  case cursorGet =>
    intro cs i c k at_i
    refine Walk.wp_walkOver live nofun nofun ⟨?_, rfl⟩
    rw [Plain.walkOver, Plain.stepAt, at_i]
    exact congrArg (fun x => (CursorAnswer.item _ x, cs)) (Option.map_id' ..)
  case forward => exact VectorOwner.wp_toList live ⟨Wire.words_items few fun _ _ => trivial, rfl⟩
  case backward =>
    refine wp_bind (wp_bind (VectorOwner.wp_len live (wp_pure ?_)))
    refine Cursor.wp_toListRev (Walk.fetches live) Walk.looks _ ⟨?_, rfl⟩
    rw [Cursor.toListRev_holds (Cursor.holds_ofLen few)]
    exact List.map_id _
  case view =>
    refine wp_bind (VectorOwner.wp_storageView live ?_)
    refine wp_bind (VectorOwner.wp_start live ?_)
    refine wp_bind (VectorOwner.wp_len live ?_)
    refine wp_bind (VectorOwner.wp_isEmpty live ?_)
    exact wp_pure ⟨rfl, rfl, rfl, empty, rfl⟩
  case unread =>
    rintro rfl
    exact VectorOwner.wp_storageView live ⟨fun start => rfl, rfl⟩

end

/-- A vector in a slot has the items that the plain values have there. -/
theorem Represents.vector {s : Session} {w : World} {p : Plain} (rep : Represents s w p) {v : Nat} {e : Element}
    {owner : VectorOwner e} (at_v : s.vectors.get? v = some ⟨e, owner⟩) :
    ∃ xs : List e.Item, p.vectors.get? v = some ⟨e, xs⟩ ∧ w.find owner.handle = some (.ofList e xs) := by
  cases value : p.vectors.get? v with
  | none =>
    have absent : s.vectors.get? v = none := rep.absent (k := .vectors) value
    rw [absent] at at_v
    cases at_v
  | some x =>
    obtain ⟨h, entry, live⟩ := rep.value (k := .vectors) value
    have same : (⟨x.1, .adopt x.1 h⟩ : AnyVector) = ⟨e, owner⟩ := Option.some.inj (entry.symm.trans at_v)
    cases same
    exact ⟨x.2, rfl, live⟩

/-- After any operations, every way to read a primitive vector shows the values that the plain vector has, bit
    for bit. -/
theorem slices_agree (a : Allocator) (settings : Settings) (ops : List Op) :
    ∃ answers s, (Session.startOn (.fresh a settings)).run ops = .ok (answers, s) ∧
      ∀ v p owner, s.vectors.get? v = some ⟨.scalar p, owner⟩ → ∃ xs : List p.Value,
        ({ Plain.start with settings }.run .words ops).2.vectors.get? v = some ⟨.scalar p, xs⟩ ∧
          (xs.length < 2 ^ 64 → s.store.world.Stores owner xs) := by
  obtain ⟨s, run, rep⟩ := start_represents a settings ops
  refine ⟨_, s, run, fun v p owner at_v => ?_⟩
  obtain ⟨xs, value, live⟩ := rep.vector at_v
  exact ⟨xs, value, World.stores live⟩

/-- For example, a NaN with a payload and a negative zero, in a vector that had another owner before. -/
theorem slices_agree_floats :
    ∃ answers s owner, (Session.startOn (.fresh .growing .initial)).run
        [.newVector (.scalar .f64), .push 0 ⟨.scalar .f64, 0x7ff8000000000123#64⟩,
          .extend 0 (.scalar .f64) [0x8000000000000000#64, 1#64], .pop 0, .releaseVector 0, .adoptVector 0] =
          .ok (answers, s) ∧
      s.vectors.get? 1 = some ⟨.scalar .f64, owner⟩ ∧
        s.store.world.Stores owner [0x7ff8000000000123#64, 0x8000000000000000#64] := by
  obtain ⟨answers, s, run, agree⟩ := slices_agree .growing .initial
    [.newVector (.scalar .f64), .push 0 ⟨.scalar .f64, 0x7ff8000000000123#64⟩,
      .extend 0 (.scalar .f64) [0x8000000000000000#64, 1#64], .pop 0, .releaseVector 0, .adoptVector 0]
  cases run
  obtain ⟨xs, value, stores⟩ := agree 1 .f64 _ rfl
  cases value
  exact ⟨_, _, _, rfl, rfl, stores (by decide)⟩

end Custody
