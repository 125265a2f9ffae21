/-
  Custody.Proofs.Owners — what owners and loans do to the world.

  An owner that owns its memory is the handle it was made with, so the rules speak of `Owner.adopt h`
  and `VectorOwner.adopt e h`. A vector lends a text as its place and a value as itself: `Lends`.
-/
import Custody.Owner.Vector
import Custody.Proofs.Calls

namespace Custody

variable {w : World}

/-! ## Owned texts -/

namespace TextOwner

theorem wp_new {Q : Owner → World → Prop}
    (post : ∀ h, w.find h = none → Q (.adopt h) ((w.put h (.text "")).counts [.textAlloc])) : wp new Q w :=
  wp_map (TextCalls.wp_new post)

theorem wp_ofText {t : String} {Q : Owner → World → Prop}
    (post : ∀ h, w.find h = none →
      Q (.adopt h) ((w.put h (.text (Wire.words.text t))).counts [.textAlloc])) : wp (ofText t) Q w :=
  wp_map (TextCalls.wp_ofView post)

theorem wp_drop {h : Handle} {t : String} (live : w.find h = some (.text t)) {Q : Unit → World → Prop}
    (post : Q () ((w.drop h).counts [.textFree])) : wp (drop (.adopt h)) Q w := by
  refine wp_bind (Store.wp_say ?_)
  exact TextCalls.wp_free live post

/-- Letting go of a handle changes nothing: the drop that follows finds nothing to give back. -/
theorem wp_release {o : Owner} {Q : Handle → World → Prop} (post : Q o.handle w) : wp (release o) Q w := by
  refine wp_bind (Store.wp_say ?_)
  refine wp_bind (wp_pure ?_)
  exact wp_pure post

end TextOwner

/-! ## Texts at their places -/

namespace Place

section
variable {p q : Place} {t u : String} (there : w.textAt p = some t)

include there

theorem wp_len {Q : UInt64 → World → Prop} (post : Q (UInt64.ofNat t.utf8ByteSize) w) : wp p.len Q w :=
  TextCalls.wp_len there post

theorem wp_isEmpty {Q : Bool → World → Prop} (post : Q (UInt64.ofNat t.utf8ByteSize == 0) w) :
    wp p.isEmpty Q w := by
  refine wp_bind (wp_len there ?_)
  exact wp_pure post

theorem wp_text {Q : String → World → Prop} (post : Q (Wire.words.text t) w) : wp p.text Q w := by
  refine wp_bind (TextCalls.wp_view there ?_)
  exact wp_pure post

theorem wp_trimmed {Q : String → World → Prop} (post : Q (Wire.words.text (Text.trim t)) w) :
    wp p.trimmed Q w := by
  refine wp_bind (TextCalls.wp_trim there ?_)
  exact wp_pure post

theorem wp_debug {Q : String → World → Prop} (post : Q (Text.quote (Wire.words.text t)) w) :
    wp p.debug Q w := by
  refine wp_bind (wp_text there ?_)
  exact wp_pure post

theorem wp_hash {Q : UInt64 → World → Prop} (post : Q (Hash.sip 0 0 (Hash.wordBytes (textHash t))) w) :
    wp p.hash Q w := by
  refine wp_bind (TextCalls.wp_hash there ?_)
  exact wp_pure post

theorem wp_equals (there' : w.textAt q = some u) {Q : Bool → World → Prop} (post : Q (t == u) w) :
    wp (p.equals q) Q w :=
  TextCalls.wp_equals there there' post

theorem wp_equalsText {Q : Bool → World → Prop} (post : Q (Wire.words.text t == u) w) :
    wp (p.equalsText u) Q w := by
  refine wp_bind (wp_text there ?_)
  exact wp_pure post

theorem wp_read {Q : Reading → World → Prop} (post : Q (Wire.words.reading t) w) : wp p.read Q w := by
  refine wp_bind (wp_len there ?_)
  refine wp_bind (wp_isEmpty there ?_)
  refine wp_bind (wp_text there ?_)
  refine wp_bind (wp_trimmed there ?_)
  refine wp_bind (TextCalls.wp_view there ?_)
  refine wp_bind (wp_text there ?_)
  refine wp_bind (wp_debug there ?_)
  refine wp_bind (wp_hash there ?_)
  exact wp_pure post

theorem wp_edit {edit : Edit} {Q : Unit → World → Prop} (post : Q () (w.write p (Wire.words.edit t edit))) :
    wp (p.edit edit) Q w := by
  cases edit with
  | push piece => exact TextCalls.wp_append there post
  | clear => exact TextCalls.wp_clear there post

end

theorem wp_editAll (edits : List Edit) {p : Place} : ∀ {w : World} {t : String}, w.textAt p = some t →
    ∀ {Q : Unit → World → Prop}, Q () (w.write p (edits.foldl Wire.words.edit t)) →
      wp (p.editAll edits) Q w := by
  induction edits with
  | nil =>
    intro w t there Q post
    rw [List.foldl_nil, World.write_self there] at post
    exact wp_pure post
  | cons edit edits ih =>
    intro w t there Q post
    refine wp_bind (wp_edit there (ih (World.textAt_write there _) ?_))
    rwa [World.write_write there]

end Place

/-! ## Vectors -/

namespace Element

/-- What a loan of an item stands for. -/
def Lends (w : World) : (e : Element) → e.Lent → e.Item → Prop
  | .text, p, t => w.textAt p = some t
  | .scalar _, x, y => x = y

/-- What is recorded when an item is made and moved into a vector. -/
def pushEvents : Element → List Event
  | .text => [.textAlloc, .textTransfer]
  | .scalar _ => []

theorem wp_look {e : Element} {x : e.Lent} {y : e.Item} (lends : e.Lends w x y) {Q : e.Item → World → Prop}
    (post : Q (Wire.words.item e y) w) : wp (e.look x) Q w := by
  cases e with
  | text => exact Place.wp_text lends post
  | scalar p => cases lends; exact wp_pure post

end Element

namespace VectorOwner

theorem wp_new {e : Element} {Q : VectorOwner e → World → Prop}
    (post : ∀ h, w.find h = none → Q (adopt e h) ((w.put h (.ofList e [])).counts [.vectorAlloc])) :
    wp (new e) Q w := by
  apply wp_bind
  apply VectorCalls.wp_new
  intro h fresh
  refine wp_bind (Store.wp_say ?_)
  exact wp_pure (post h fresh)

theorem wp_release {e : Element} {v : VectorOwner e} {Q : Handle → World → Prop} (post : Q v.handle w) :
    wp v.release Q w := by
  refine wp_bind (wp_pure ?_)
  exact wp_pure post

/-- A loan of item `i` of a vector of texts. -/
def lentText (v : Handle) (ts : List String) (i : UInt64) : Option Place :=
  if i.toNat < ts.length then some (.item v i) else none

theorem lends_lentText {v : Handle} {ts : List String} (live : w.find v = some (.ofList .text ts)) (i : UInt64) :
    Option.Rel (Element.text.Lends w) (lentText v ts i) ts[i.toNat]? := by
  unfold lentText
  split
  · rename_i hi
    rw [List.getElem?_eq_getElem hi]
    exact .some ((World.textAt_item live).trans (List.getElem?_eq_getElem hi))
  · rename_i hi
    rw [List.getElem?_eq_none (by omega)]
    exact .none

theorem option_rel_refl {α : Type} (x : Option α) : Option.Rel Eq x x := by
  cases x with
  | none => exact .none
  | some x => exact .some rfl

section
variable {e : Element} {v : VectorOwner e} {xs : List e.Item} (live : w.find v.handle = some (.ofList e xs))

include live

theorem wp_len {Q : UInt64 → World → Prop} (post : Q (UInt64.ofNat xs.length) w) : wp v.len Q w :=
  VectorCalls.wp_len live post

theorem wp_isEmpty {Q : Bool → World → Prop} (post : Q (UInt64.ofNat xs.length == 0) w) : wp v.isEmpty Q w := by
  refine wp_bind (wp_len live ?_)
  exact wp_pure post

theorem wp_start {Q : Place → World → Prop} (post : Q (.item v.handle 0) w) : wp v.start Q w :=
  VectorCalls.wp_start live post

theorem wp_get {i : UInt64} {Q : Option e.Lent → World → Prop}
    (post : ∀ x, Option.Rel (e.Lends w) x xs[i.toNat]? → Q x w) : wp (v.get i) Q w := by
  cases e with
  | text => exact VectorCalls.wp_getText live (post _ (lends_lentText live i))
  | scalar p =>
    refine wp_bind (VectorCalls.wp_getScalar live ?_)
    rw [Tagged.toOption_ofOption]
    exact wp_pure (post _ (option_rel_refl _))

theorem wp_getMut {i : UInt64} {Q : Option e.Lent → World → Prop}
    (post : ∀ x, Option.Rel (e.Lends w) x xs[i.toNat]? → Q x w) : wp (v.getMut i) Q w := by
  cases e with
  | text => exact VectorCalls.wp_getMutText live (post _ (lends_lentText live i))
  | scalar p =>
    refine wp_bind (VectorCalls.wp_getMutScalar live ?_)
    rw [Tagged.toOption_ofOption]
    exact wp_pure (post _ (option_rel_refl _))

theorem wp_itemAt {i : UInt64} {Q : Except OutOfRange e.Lent → World → Prop}
    (there : ∀ x y, xs[i.toNat]? = some y → e.Lends w x y → Q (.ok x) w)
    (out : xs[i.toNat]? = none → Q (.error ⟨i, UInt64.ofNat xs.length⟩) w) : wp (v.itemAt i) Q w := by
  refine wp_bind (wp_get live fun x lends => ?_)
  generalize at_i : xs[i.toNat]? = y at lends
  cases lends with
  | none =>
    refine wp_bind (wp_len live ?_)
    exact wp_pure (out at_i)
  | some lends => exact wp_pure (there _ _ at_i lends)

/-- An item that is made and moved in is the last one; nothing else of it stays. -/
theorem wp_makePush (x : e.Item) {Q : Unit → World → Prop}
    (post : Q () ((w.put v.handle (.ofList e (xs ++ [Wire.words.item e x]))).counts e.pushEvents)) :
    wp (do v.push (← e.make x)) Q w := by
  cases e with
  | text =>
    apply wp_bind
    apply TextOwner.wp_ofText
    intro h fresh
    refine wp_bind (TextOwner.wp_release ?_)
    exact VectorCalls.wp_pushFresh live fresh post
  | scalar p =>
    refine wp_bind (wp_pure ?_)
    exact VectorCalls.wp_pushScalar live post

end

theorem wp_drop {e : Element} {h : Handle} {xs : List e.Item} (live : w.find h = some (.ofList e xs))
    {Q : Unit → World → Prop}
    (post : Q () ((w.drop h).counts [.vectorFree (VectorCalls.textsIn e xs.length)])) :
    wp (adopt e h).drop Q w := by
  refine wp_bind (Store.wp_say ?_)
  exact VectorCalls.wp_drop live post

theorem wp_extend {e : Element} {v : VectorOwner e} (ys : List e.Item) : ∀ {w : World} {xs : List e.Item},
    w.find v.handle = some (.ofList e xs) → ∀ {Q : Unit → World → Prop},
      Q () ((w.put v.handle (.ofList e (xs ++ ys.map (Wire.words.item e)))).counts
        (ys.flatMap fun _ => e.pushEvents)) →
        wp (v.extend (ys.map e.make)) Q w := by
  induction ys with
  | nil =>
    intro w xs live Q post
    rw [List.map_nil, List.append_nil, World.put_self live] at post
    exact wp_pure post
  | cons y ys ih =>
    intro w xs live Q post
    have assoc : v.extend ((y :: ys).map e.make) =
        (do v.push (← e.make y)) >>= fun _ => v.extend (ys.map e.make) := by
      rw [List.map_cons, extend, bind_assoc]
    rw [assoc]
    refine wp_bind (wp_makePush live y ?_)
    apply ih (World.find_put_counts ..)
    rw [World.put_counts, World.put_put, World.counts_counts, List.append_assoc]
    exact post

theorem wp_collect {e : Element} (ys : List e.Item) {Q : VectorOwner e → World → Prop}
    (post : ∀ h, w.find h = none → Q (adopt e h)
      ((w.put h (.ofList e (ys.map (Wire.words.item e)))).counts
        (.vectorAlloc :: ys.flatMap fun _ => e.pushEvents))) :
    wp (collect e (ys.map e.make)) Q w := by
  apply wp_bind
  apply wp_new
  intro h fresh
  refine wp_bind (wp_extend ys (World.find_put_counts ..) ?_)
  rw [World.put_counts, World.counts_counts]
  simp only [adopt, World.put_put, List.nil_append]
  exact wp_pure (post h fresh)

end VectorOwner

end Custody
