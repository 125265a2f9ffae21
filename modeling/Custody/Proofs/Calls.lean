/-
  Custody.Proofs.Calls — what each exported function does to the world.

  One rule a function: where its handles are live and of the right kind it faults nowhere, and the
  world it leaves is written out. A text that is made for a vector and moved in at once leaves no
  trace but its events (`wp_pushFresh`).
-/
import Custody.Proofs.Wire
import Custody.Proofs.World

namespace Custody

/-- A vector's allocation, its items as a list. -/
def Object.ofList (e : Element) (xs : List e.Item) : Object := .vector e xs.toArray

namespace World

/-- The text at a place. -/
def textAt (w : World) : Place → Option String
  | .whole h =>
    match w.find h with
    | some (.text t) => some t
    | _ => none
  | .item v i =>
    match w.find v with
    | some (.vector .text ts) => ts[i.toNat]?
    | _ => none

/-- The world in which the place holds another text. -/
def write (w : World) (p : Place) (t : String) : World :=
  match p with
  | .whole h => w.put h (.text t)
  | .item v i =>
    match w.find v with
    | some (.vector .text ts) => w.put v (.vector .text (ts.setIfInBounds i.toNat t))
    | _ => w

variable {w : World}

theorem textAt_whole {h : Handle} {t : String} (live : w.find h = some (.text t)) :
    w.textAt (.whole h) = some t := by simp [textAt, live]

theorem textAt_item {v : Handle} {i : UInt64} {ts : List String} (live : w.find v = some (.ofList .text ts)) :
    w.textAt (.item v i) = ts[i.toNat]? := by
  simp [textAt, live, Object.ofList]

theorem write_item {v : Handle} {i : UInt64} {ts : List String} (t : String)
    (live : w.find v = some (.ofList .text ts)) :
    w.write (.item v i) t = w.put v (.ofList .text (ts.set i.toNat t)) := by
  simp [write, live, Object.ofList]

theorem find_of_textAt_whole {h : Handle} {t : String} (there : w.textAt (.whole h) = some t) :
    w.find h = some (.text t) := by
  simp only [textAt] at there
  split at there
  · rename_i live; cases there; exact live
  · cases there

theorem find_of_textAt_item {v : Handle} {i : UInt64} {t : String} (there : w.textAt (.item v i) = some t) :
    ∃ ts : List String, w.find v = some (.ofList .text ts) ∧ ts[i.toNat]? = some t := by
  simp only [textAt] at there
  split at there
  · rename_i ts live
    exact ⟨ts.toList, by simpa [Object.ofList] using live, by simpa using there⟩
  · cases there

/-- A text can be written only where there is one, and is then found there. -/
theorem textAt_write {p : Place} {t : String} (there : w.textAt p = some t) (t' : String) :
    (w.write p t').textAt p = some t' := by
  cases p with
  | whole h => simp [write, textAt]
  | item v i =>
    obtain ⟨ts, live, at_i⟩ := find_of_textAt_item there
    have hi : i.toNat < ts.length := (List.getElem?_eq_some_iff.mp at_i).1
    rw [write_item t' live, textAt_item (find_put_self ..)]
    simp [hi]

theorem write_write {p : Place} {t : String} (there : w.textAt p = some t) (t' t'' : String) :
    (w.write p t').write p t'' = w.write p t'' := by
  cases p with
  | whole h => simp [write]
  | item v i =>
    obtain ⟨ts, live, -⟩ := find_of_textAt_item there
    rw [write_item t' live, write_item t'' (find_put_self ..), write_item t'' live, put_put, List.set_set]

theorem write_self {p : Place} {t : String} (there : w.textAt p = some t) : w.write p t = w := by
  cases p with
  | whole h => exact put_self (find_of_textAt_whole there)
  | item v i =>
    obtain ⟨ts, live, at_i⟩ := find_of_textAt_item there
    obtain ⟨hi, rfl⟩ := List.getElem?_eq_some_iff.mp at_i
    rw [write_item _ live, List.set_getElem_self]
    exact put_self live

end World

/-! ## Places and items -/

namespace Store

variable {w : World}

theorem wp_boxedText {h : Handle} {t : String} (live : w.find h = some (.text t))
    {Q : String → World → Prop} (post : Q t w) : wp (boxedText h) Q w := by
  refine wp_bind (wp_object live ?_)
  exact wp_pure post

theorem wp_items {e : Element} {v : Handle} {xs : List e.Item} (live : w.find v = some (.ofList e xs))
    {Q : Array e.Item → World → Prop} (post : Q xs.toArray w) : wp (items e v) Q w := by
  refine wp_bind (wp_object live ?_)
  simp only [Object.ofList, dite_true]
  exact wp_pure post

theorem wp_textAt {p : Place} {t : String} (there : w.textAt p = some t) {Q : String → World → Prop}
    (post : Q t w) : wp (textAt p) Q w := by
  cases p with
  | whole h => exact wp_boxedText (World.find_of_textAt_whole there) post
  | item v i =>
    obtain ⟨ts, live, at_i⟩ := World.find_of_textAt_item there
    refine wp_bind (wp_items live ?_)
    rw [List.getElem?_toArray, at_i]
    exact wp_pure post

theorem wp_editText {p : Place} {t : String} (there : w.textAt p = some t) {f : String → String}
    {Q : Unit → World → Prop} (post : Q () (w.write p (f t))) : wp (editText p f) Q w := by
  refine wp_bind (wp_textAt there ?_)
  cases p with
  | whole h => exact wp_replace (World.find_of_textAt_whole there) post
  | item v i =>
    obtain ⟨ts, live, -⟩ := World.find_of_textAt_item there
    rw [World.write_item _ live, Object.ofList, ← List.setIfInBounds_toArray] at post
    refine wp_bind (wp_items live ?_)
    exact wp_replace live post

theorem wp_storageFrom {p : Primitive} {v : Handle} {i : UInt64} {xs : List p.Value}
    (live : w.find v = some (.ofList (.scalar p) xs)) {Q : List p.Value → World → Prop}
    (post : Q (xs.drop i.toNat) w) : wp (storageFrom p (.item v i)) Q w := by
  refine wp_bind (wp_items live ?_)
  exact wp_pure post

end Store

/-! ## Texts -/

namespace TextCalls

variable {w : World}

theorem wp_handOut {t : String} {Q : Handle → World → Prop}
    (post : ∀ h, w.find h = none → Q h ((w.put h (.text t)).counts [.textAlloc])) : wp (handOut t) Q w := by
  refine wp_bind (Store.wp_count ?_)
  exact Store.wp_allocate post

theorem wp_takeBack {h : Handle} {t : String} (live : w.find h = some (.text t))
    {Q : String → World → Prop} (post : Q t (w.drop h)) : wp (takeBack h) Q w := by
  refine wp_bind (Store.wp_boxedText live ?_)
  refine wp_bind (Store.wp_release ?_)
  exact wp_pure post

theorem wp_new {Q : Handle → World → Prop}
    (post : ∀ h, w.find h = none → Q h ((w.put h (.text "")).counts [.textAlloc])) : wp new Q w := by
  refine wp_bind (Store.wp_enter ?_)
  exact wp_handOut post

theorem wp_ofView {t : String} {Q : Handle → World → Prop}
    (post : ∀ h, w.find h = none → Q h ((w.put h (.text (Wire.words.text t))).counts [.textAlloc])) :
    wp (ofView (.ofText t)) Q w := by
  refine wp_bind (Store.wp_enter ?_)
  exact wp_handOut post

theorem wp_free {h : Handle} {t : String} (live : w.find h = some (.text t)) {Q : Unit → World → Prop}
    (post : Q () ((w.drop h).counts [.textFree])) : wp (free h) Q w := by
  refine wp_bind (Store.wp_enter ?_)
  refine wp_bind (Store.wp_count ?_)
  apply wp_discard
  exact wp_takeBack (w := w.counts [.textFree]) live post

section
variable {p q : Place} {t u : String} (there : w.textAt p = some t)

include there

theorem wp_len {Q : UInt64 → World → Prop} (post : Q (UInt64.ofNat t.utf8ByteSize) w) : wp (len p) Q w := by
  refine wp_bind (Store.wp_enter ?_)
  refine wp_bind (Store.wp_textAt there ?_)
  exact wp_pure post

theorem wp_view {Q : TextView → World → Prop} (post : Q (.ofText t) w) : wp (view p) Q w := by
  refine wp_bind (Store.wp_enter ?_)
  refine wp_bind (Store.wp_textAt there ?_)
  exact wp_pure post

theorem wp_trim {Q : TextView → World → Prop} (post : Q (.ofText (Text.trim t)) w) : wp (trim p) Q w := by
  refine wp_bind (Store.wp_enter ?_)
  refine wp_bind (Store.wp_textAt there ?_)
  exact wp_pure post

theorem wp_append {Q : Unit → World → Prop} (post : Q () (w.write p (t ++ Wire.words.text u))) :
    wp (append p (.ofText u)) Q w := by
  refine wp_bind (Store.wp_enter ?_)
  exact Store.wp_editText there post

theorem wp_clear {Q : Unit → World → Prop} (post : Q () (w.write p "")) : wp (clear p) Q w := by
  refine wp_bind (Store.wp_enter ?_)
  exact Store.wp_editText there post

theorem wp_equals (there' : w.textAt q = some u) {Q : Bool → World → Prop} (post : Q (t == u) w) :
    wp (equals p q) Q w := by
  refine wp_bind (Store.wp_enter ?_)
  refine wp_bind (Store.wp_textAt there ?_)
  refine wp_bind (Store.wp_textAt there' ?_)
  exact wp_pure post

theorem wp_hash {Q : UInt64 → World → Prop} (post : Q (textHash t) w) : wp (hash p) Q w := by
  refine wp_bind (Store.wp_enter ?_)
  refine wp_bind (Store.wp_textAt there ?_)
  exact wp_pure post

end

end TextCalls

/-! ## Vectors -/

namespace VectorCalls

variable {w : World}

theorem wp_new {e : Element} {Q : Handle → World → Prop}
    (post : ∀ h, w.find h = none → Q h ((w.put h (.ofList e [])).counts [.vectorAlloc])) :
    wp (new e) Q w := by
  refine wp_bind (Store.wp_enter ?_)
  refine wp_bind (wp_get fun _ _ => ?_)
  refine wp_bind (Store.wp_count ?_)
  apply wp_bind
  apply Store.wp_allocate
  intro h fresh
  refine wp_bind (Store.wp_say ?_)
  exact wp_pure (post h fresh)

section
variable {e : Element} {v : Handle} {xs : List e.Item} (live : w.find v = some (.ofList e xs))

include live

theorem wp_drop {Q : Unit → World → Prop}
    (post : Q () ((w.drop v).counts [.vectorFree (textsIn e xs.length)])) : wp (drop e v) Q w := by
  refine wp_bind (Store.wp_enter ?_)
  refine wp_bind (Store.wp_items live ?_)
  refine wp_bind (Store.wp_say ?_)
  refine wp_bind (Store.wp_release ?_)
  exact Store.wp_count post

theorem wp_len {Q : UInt64 → World → Prop} (post : Q (UInt64.ofNat xs.length) w) : wp (len e v) Q w := by
  refine wp_bind (Store.wp_enter ?_)
  refine wp_bind (Store.wp_items live ?_)
  exact wp_pure post

theorem wp_start {Q : Place → World → Prop} (post : Q (.item v 0) w) : wp (start e v) Q w := by
  refine wp_bind (Store.wp_enter ?_)
  apply wp_bind
  apply wp_discard
  refine Store.wp_items live ?_
  exact wp_pure post

end

section
variable {v : Handle} {ts : List String} (live : w.find v = some (.ofList .text ts))

include live

/-- The text leaves its allocation and is the vector's last one. -/
theorem wp_pushText {item : Handle} {t : String} (liveItem : w.find item = some (.text t))
    {Q : Unit → World → Prop}
    (post : Q () (((w.drop item).put v (.ofList .text (ts ++ [t]))).counts [.textTransfer])) :
    wp (pushText v item) Q w := by
  have ne : v ≠ item := by
    intro e
    rw [← e, live] at liveItem
    cases liveItem
  have live' : ((w.drop item).counts [.textTransfer]).find v = some (.ofList .text ts) := by
    rw [World.find_counts, World.find_drop_ne ne, live]
  refine wp_bind (Store.wp_enter ?_)
  refine wp_bind (TextCalls.wp_takeBack liveItem ?_)
  refine wp_bind (Store.wp_count ?_)
  refine wp_bind (Store.wp_items live' ?_)
  apply Store.wp_replace live'
  rw [List.push_toArray]
  exact post

/-- A text that was made for the vector is moved in: of its allocation only the events are left. -/
theorem wp_pushFresh {h : Handle} {t : String} (fresh : w.find h = none) {Q : Unit → World → Prop}
    (post : Q () ((w.put v (.ofList .text (ts ++ [t]))).counts [.textAlloc, .textTransfer])) :
    wp (pushText v h) Q ((w.put h (.text t)).counts [.textAlloc]) := by
  have ne : v ≠ h := World.ne_of_live live fresh
  have live' : ((w.put h (.text t)).counts [.textAlloc]).find v = some (.ofList .text ts) := by
    rw [World.find_counts, World.find_put_ne ne, live]
  refine wp_pushText live' (World.find_put_counts ..) ?_
  rw [World.drop_counts, World.drop_put, World.drop_self fresh, World.put_counts, World.counts_counts]
  exact post

/-- The last text leaves the vector, for an allocation of its own. -/
theorem wp_popText {Q : Option Handle → World → Prop} (empty : ts.getLast? = none → Q none w)
    (popped : ∀ t h, ts.getLast? = some t → w.find h = none →
      Q (some h) (((w.put v (.ofList .text ts.dropLast)).put h (.text t)).counts [.textAlloc])) :
    wp (popText v) Q w := by
  refine wp_bind (Store.wp_enter ?_)
  refine wp_bind (Store.wp_items live ?_)
  rw [List.back?_toArray]
  cases last : ts.getLast? with
  | none => exact wp_pure (empty last)
  | some t =>
    refine wp_bind (Store.wp_replace live ?_)
    apply wp_map
    apply TextCalls.wp_handOut
    intro h fresh
    rw [List.pop_toArray] at fresh ⊢
    have ne : h ≠ v := by
      intro e
      rw [e, World.find_put_self] at fresh
      cases fresh
    exact popped t h last (by rwa [World.find_put_ne ne] at fresh)

theorem wp_lend {i : UInt64} {Q : Option Place → World → Prop}
    (post : Q (if i.toNat < ts.length then some (.item v i) else none) w) : wp (lend v i) Q w := by
  refine wp_bind (Store.wp_items live ?_)
  apply wp_pure
  simpa using post

theorem wp_getText {i : UInt64} {Q : Option Place → World → Prop}
    (post : Q (if i.toNat < ts.length then some (.item v i) else none) w) : wp (getText v i) Q w := by
  refine wp_bind (Store.wp_enter ?_)
  exact wp_lend live post

theorem wp_getMutText {i : UInt64} {Q : Option Place → World → Prop}
    (post : Q (if i.toNat < ts.length then some (.item v i) else none) w) : wp (getMutText v i) Q w := by
  refine wp_bind (Store.wp_enter ?_)
  exact wp_lend live post

end

section
variable {p : Primitive} {v : Handle} {xs : List p.Value} (live : w.find v = some (.ofList (.scalar p) xs))

include live

theorem wp_pushScalar {x : p.Value} {Q : Unit → World → Prop}
    (post : Q () (w.put v (.ofList (.scalar p) (xs ++ [x])))) : wp (pushScalar p v x) Q w := by
  refine wp_bind (Store.wp_enter ?_)
  refine wp_bind (Store.wp_items live ?_)
  apply Store.wp_replace live
  rw [List.push_toArray]
  exact post

theorem wp_popScalar {Q : Tagged p.Value → World → Prop}
    (post : Q (.ofOption p.zero xs.getLast?) (w.put v (.ofList (.scalar p) xs.dropLast))) :
    wp (popScalar p v) Q w := by
  refine wp_bind (Store.wp_enter ?_)
  refine wp_bind (Store.wp_items live ?_)
  refine wp_bind (Store.wp_replace live ?_)
  rw [List.back?_toArray, List.pop_toArray]
  exact wp_pure post

theorem wp_copy {i : UInt64} {Q : Tagged p.Value → World → Prop}
    (post : Q (.ofOption p.zero xs[i.toNat]?) w) : wp (copy p v i) Q w := by
  refine wp_bind (Store.wp_items live ?_)
  apply wp_pure
  simpa using post

theorem wp_getScalar {i : UInt64} {Q : Tagged p.Value → World → Prop}
    (post : Q (.ofOption p.zero xs[i.toNat]?) w) : wp (getScalar p v i) Q w := by
  refine wp_bind (Store.wp_enter ?_)
  exact wp_copy live post

theorem wp_getMutScalar {i : UInt64} {Q : Tagged p.Value → World → Prop}
    (post : Q (.ofOption p.zero xs[i.toNat]?) w) : wp (getMutScalar p v i) Q w := by
  refine wp_bind (Store.wp_enter ?_)
  exact wp_copy live post

end

end VectorCalls

end Custody
