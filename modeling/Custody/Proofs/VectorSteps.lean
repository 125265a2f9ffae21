/-
  Custody.Proofs.VectorSteps — the operations on vectors do what they do on lists.

  A change of a vector is one change of its allocation and one of its list (`change`); a question
  changes nothing. What differs by the element type is settled below, by the rules of `Owners`,
  `Walks` and `Direct`.
-/
import Custody.Proofs.TextSteps

namespace Custody

namespace Sim

variable {s : Session} {p : Plain} (rep : Represents s s.store.world p)

/-- A vector's allocation was changed, and deeds were done; so it is with the list. -/
theorem change {e : Element} {v : Nat} {h : Handle} {w : World} (rep : Represents s w p)
    (entry : s.vectors.get? v = some ⟨e, .adopt e h⟩) (ys : List e.Item) (ds : List Deed) {st : Store}
    (hst : st.world = (w.put h (.ofList e ys)).counts (ds.map Deed.event)) {x : Answer} :
    Sim (Pure.pure x) (do Plain.Table.vectors.put v ⟨e, ys⟩; Plain.did ds; Pure.pure x)
      { s with store := st } p Agree := by
  have rep := (rep.write (k := .vectors) (v := ⟨e, []⟩) entry ⟨e, ys⟩ rfl).did ds
  apply modify
  apply modify
  exact done (rep.onStore st) hst

include rep

/-! ## Making vectors -/

theorem newVector (e : Element) :
    Sim (Session.perform (.newVector e)) (Plain.perform .words (.newVector e)) s p Agree := by
  refine call rfl (VectorOwner.wp_new fun h fresh st hst => ?_)
  apply modify
  refine add ((rep.did [.vectorMade]).onStore st) .vectors (v := ⟨e, []⟩) fresh fun i rep => ?_
  exact done rep hst

theorem collectVector (e : Element) (xs : List e.Item) :
    Sim (Session.perform (.collectVector e xs)) (Plain.perform .words (.collectVector e xs)) s p Agree := by
  refine call rfl (VectorOwner.wp_collect xs fun h fresh st hst => ?_)
  rw [← Element.map_event_pushAll] at hst
  apply modify
  refine add ((rep.did (.vectorMade :: xs.flatMap fun _ => e.pushDeeds)).onStore st) .vectors
    (v := ⟨e, xs.map (Wire.words.item e)⟩) fresh fun i rep => ?_
  exact done rep hst

/-! ## Moving items -/

theorem push (v : Nat) (x : AnyItem) :
    Sim (Session.perform (.push v x)) (Plain.perform .words (.push v x)) s p Agree := by
  obtain ⟨e, x⟩ := x
  refine vectorOf rep fun h xs entry _ live => ?_
  show Sim (Session.call (e.make x) >>= fun item => Session.call ((VectorOwner.adopt e h).push item) >>= fun _ =>
    Pure.pure .done) _ s p Agree
  rw [← bind_assoc, ← call_bind]
  refine call rfl (VectorOwner.wp_makePush live x fun st hst => ?_)
  rw [← Element.map_event_pushDeeds] at hst
  exact change rep entry _ _ hst

theorem pushText (v i : Nat) :
    Sim (Session.perform (.pushText v i)) (Plain.perform .words (.pushText v i)) s p Agree := by
  refine textVector rep fun h ts entry _ live => ?_
  refine take rep .texts fun g t _ liveText rep => ?_
  apply call rfl
  refine wp_bind (TextOwner.wp_release ?_)
  refine VectorCalls.wp_pushText live liveText fun st hst => ?_
  exact change rep entry _ [.moved] hst

theorem extend (v : Nat) (e : Element) (ys : List e.Item) :
    Sim (Session.perform (.extend v e ys)) (Plain.perform .words (.extend v e ys)) s p Agree := by
  refine vectorOf rep fun h xs entry _ live => ?_
  refine call rfl (VectorOwner.wp_extend ys live fun st hst => ?_)
  rw [← Element.map_event_pushAll] at hst
  exact change rep entry _ _ hst

/-- A popped text goes from the vector's allocation to one of its own, and to a slot. -/
theorem popText {v : Nat} {h : Handle} {ts : List String}
    (entry : s.vectors.get? v = some ⟨.text, .adopt .text h⟩)
    (live : s.store.world.find h = some (.ofList .text ts)) :
    Sim (Session.popItem .text (.adopt .text h)) (Plain.popItem .words v .text ts) s p Agree := by
  rw [Session.popItem, Plain.popItem]
  apply call rfl
  refine wp_bind (VectorCalls.wp_popText live (fun empty => ?_) fun t g last fresh => ?_)
  · rw [empty]
    refine wp_pure fun st hst => ?_
    exact done (rep.onStore st) hst
  · rw [last]
    refine wp_pure fun st hst => ?_
    apply modify
    apply modify
    have rep := ((rep.write (k := .vectors) (v := ⟨.text, []⟩) entry ⟨.text, ts.dropLast⟩ rfl).did
      [.popped]).onStore st
    have ne : g ≠ h := (World.ne_of_live live fresh).symm
    refine add rep .texts (h := g) (v := t) ((World.find_put_ne ne).trans fresh) fun i rep => ?_
    refine call hst (Place.wp_text (World.textAt_whole (World.find_put_counts ..)) fun st hst => ?_)
    exact done (rep.onStore st) hst

theorem popScalar {q : Primitive} {v : Nat} {h : Handle} {xs : List q.Value}
    (entry : s.vectors.get? v = some ⟨.scalar q, .adopt (.scalar q) h⟩)
    (live : s.store.world.find h = some (.ofList (.scalar q) xs)) :
    Sim (Session.popItem (.scalar q) (.adopt (.scalar q) h)) (Plain.popItem .words v (.scalar q) xs) s p Agree := by
  rw [Session.popItem, Plain.popItem]
  apply call rfl
  refine wp_bind (VectorCalls.wp_popScalar live ?_)
  refine wp_pure fun st hst => ?_
  rw [Tagged.toOption_ofOption]
  have rep := rep.write (k := .vectors) (v := ⟨.scalar q, []⟩) entry ⟨.scalar q, xs.dropLast⟩ rfl
  apply modify
  exact done (rep.onStore st) hst

theorem pop (v : Nat) : Sim (Session.perform (.pop v)) (Plain.perform .words (.pop v)) s p Agree := by
  refine peek rep .vectors fun h ⟨e, xs⟩ entry _ live => ?_
  cases e with
  | text => exact popText rep entry live
  | scalar q => exact popScalar rep entry live

theorem dropVector (i : Nat) :
    Sim (Session.perform (.dropVector i)) (Plain.perform .words (.dropVector i)) s p Agree := by
  refine giveBack rep .vectors (fun v => v.2.drop) (fun xs => [.vectorEnded (xs.1.texts xs.2.length)]) ?_
  intro h xs w live Q post
  obtain ⟨e, xs⟩ := xs
  refine VectorOwner.wp_drop live ?_
  cases e <;> exact post

theorem releaseVector (i : Nat) :
    Sim (Session.perform (.releaseVector i)) (Plain.perform .words (.releaseVector i)) s p Agree := by
  refine take rep .vectors fun h xs _ live rep => ?_
  refine call rfl (VectorOwner.wp_release fun st hst => ?_)
  exact settle .releasedVectors (rep.onStore st) live hst

theorem adoptVector (i : Nat) :
    Sim (Session.perform (.adoptVector i)) (Plain.perform .words (.adoptVector i)) s p Agree := by
  refine take rep .releasedVectors fun h xs _ live rep => ?_
  exact settle .vectors rep live rfl

/-! ## Looking at items -/

omit rep in
theorem showItem {e : Element} {w : World} {x : Option e.Lent} {y : Option e.Item}
    (lends : Option.Rel (e.Lends w) x y) (rep : Represents s w p) (real : s.store.world = w) :
    Sim (Session.showItem e x) (Pure.pure (.item e (y.map (Wire.words.item e)))) s p Agree := by
  cases lends with
  | none => exact done rep real
  | some lends =>
    refine call real (Element.wp_look lends fun st hst => ?_)
    exact done (rep.onStore st) hst

theorem getItem (v : Nat) (i : UInt64) :
    Sim (Session.perform (.get v i)) (Plain.perform .words (.get v i)) s p Agree := by
  refine peek rep .vectors fun h xs _ _ live => ?_
  refine call rfl (VectorOwner.wp_get live fun x lends st hst => ?_)
  exact showItem lends (rep.onStore st) hst

theorem getMutItem (v : Nat) (i : UInt64) :
    Sim (Session.perform (.getMut v i)) (Plain.perform .words (.getMut v i)) s p Agree := by
  refine peek rep .vectors fun h xs _ _ live => ?_
  refine call rfl (VectorOwner.wp_getMut live fun x lends st hst => ?_)
  exact showItem lends (rep.onStore st) hst

theorem itemAt (v : Nat) (i : UInt64) :
    Sim (Session.perform (.itemAt v i)) (Plain.perform .words (.itemAt v i)) s p Agree := by
  refine peek rep .vectors fun h ⟨e, xs⟩ _ _ live => ?_
  have live : s.store.world.find h = some (.ofList e xs) := live
  dsimp only
  apply call rfl
  refine VectorOwner.wp_itemAt (v := .adopt e h) live (fun x y there lends st hst => ?_) fun out st hst => ?_
  · rw [there]
    refine call hst (Element.wp_look lends fun st hst => ?_)
    exact done (rep.onStore st) hst
  · rw [out]
    exact done (rep.onStore st) hst

theorem vectorLen (v : Nat) :
    Sim (Session.perform (.vectorLen v)) (Plain.perform .words (.vectorLen v)) s p Agree := by
  refine peek rep .vectors fun h xs _ _ live => ?_
  refine call rfl (VectorOwner.wp_len live fun st hst => ?_)
  refine call hst (VectorOwner.wp_isEmpty live fun st hst => ?_)
  exact done (rep.onStore st) hst

theorem debugVector (v : Nat) :
    Sim (Session.perform (.debugVector v)) (Plain.perform .words (.debugVector v)) s p Agree := by
  refine peek rep .vectors fun h xs _ _ live => ?_
  refine call rfl (VectorOwner.wp_debug live fun st hst => ?_)
  exact done (rep.onStore st) hst

theorem listVector (v : Nat) :
    Sim (Session.perform (.listVector v)) (Plain.perform .words (.listVector v)) s p Agree := by
  refine peek rep .vectors fun h xs _ _ live => ?_
  refine call rfl (VectorOwner.wp_toList live fun st hst => ?_)
  exact done (rep.onStore st) hst

/-- A vector of texts starts where its first item lies. -/
theorem sliceText {h : Handle} {ts : List String} (live : s.store.world.find h = some (.ofList .text ts)) :
    Sim (Session.sliceItems .text (.adopt .text h)) (Pure.pure (Plain.sliceItems .words .text ts)) s p Agree := by
  rw [Session.sliceItems, Plain.sliceItems]
  refine call rfl (VectorCalls.wp_getText live fun st hst => ?_)
  cases ts with
  | nil => exact done (rep.onStore st) hst
  | cons t ts =>
    refine call hst (VectorCalls.wp_start live fun st hst => ?_)
    simp only [BEq.rfl]
    exact done (rep.onStore st) hst

theorem sliceScalar {q : Primitive} {h : Handle} {xs : List q.Value}
    (live : s.store.world.find h = some (.ofList (.scalar q) xs)) :
    Sim (Session.sliceItems (.scalar q) (.adopt (.scalar q) h)) (Pure.pure (Plain.sliceItems .words (.scalar q) xs))
      s p Agree := by
  rw [Session.sliceItems, Plain.sliceItems]
  refine call rfl (VectorOwner.wp_storage live fun st hst => ?_)
  refine call hst (VectorOwner.wp_storageView live fun st hst => ?_)
  refine call hst (VectorOwner.wp_start live fun st hst => ?_)
  simp only [BEq.rfl, View.isEmpty]
  exact done (rep.onStore st) hst

theorem sliceVector (v : Nat) :
    Sim (Session.perform (.sliceVector v)) (Plain.perform .words (.sliceVector v)) s p Agree := by
  refine peek rep .vectors fun h ⟨e, xs⟩ _ _ live => ?_
  cases e with
  | text => exact sliceText rep live
  | scalar q => exact sliceScalar rep live

/-! ## Texts on loan -/

omit rep in
/-- What is done with a text on loan happens where the text lies. -/
theorem onLoan {α β γ : Type} {h : Handle} (ts : List String) {i : UInt64} {w : World} {f : Place → Call α}
    {k : Option α → Session.Act β} {b : Plain.Act γ} {Q : β → γ → Session → Plain → Prop}
    (real : s.store.world = w) (out : ts[i.toNat]? = none → Sim (k none) b s p Q)
    (there : ∀ t, ts[i.toNat]? = some t →
      wp (f (.item h i)) (fun x w => ∀ st, st.world = w → Sim (k (some x)) b { s with store := st } p Q) w) :
    Sim (Session.onLoan (VectorOwner.lentText h ts i) f >>= k) b s p Q := by
  unfold Session.onLoan VectorOwner.lentText
  by_cases hi : i.toNat < ts.length
  · simp only [hi, if_true]
    rw [map_eq_pure_bind, bind_assoc]
    exact call real (there ts[i.toNat] (List.getElem?_eq_getElem hi))
  · simp only [hi, if_false]
    exact out (List.getElem?_eq_none (by omega))

theorem editItem (v : Nat) (i : UInt64) (edits : List Edit) :
    Sim (Session.perform (.editItem v i edits)) (Plain.perform .words (.editItem v i edits)) s p Agree := by
  refine textVector rep fun h ts entry _ live => ?_
  refine call rfl (VectorCalls.wp_getMutText live fun st hst => ?_)
  refine onLoan ts hst (fun out => ?_) fun t there => ?_
  · rw [out]
    exact done (rep.onStore st) hst
  · rw [there]
    have place := (World.textAt_item (i := i) live).trans there
    refine wp_bind (Place.wp_editAll edits place ?_)
    refine Place.wp_read (World.textAt_write place _) fun st hst => ?_
    rw [World.write_item _ live] at hst
    have rep := rep.write (k := .vectors) (v := ⟨.text, []⟩) entry
      ⟨.text, ts.set i.toNat (edits.foldl Wire.words.edit t)⟩ rfl
    apply modify
    exact done (rep.onStore st) hst

theorem readItem (v : Nat) (i : UInt64) :
    Sim (Session.perform (.readItem v i)) (Plain.perform .words (.readItem v i)) s p Agree := by
  refine textVector rep fun h ts _ _ live => ?_
  refine call rfl (VectorCalls.wp_getText live fun st hst => ?_)
  refine onLoan ts hst (fun out => ?_) fun t there => ?_
  · rw [out]
    exact done (rep.onStore st) hst
  · rw [there]
    have place := (World.textAt_item (i := i) live).trans there
    refine wp_bind (Place.wp_read place ?_)
    refine wp_bind (TextCalls.wp_hash place ?_)
    refine wp_pure fun st hst => ?_
    exact done (rep.onStore st) hst

theorem compareItems (v : Nat) (i j : UInt64) :
    Sim (Session.perform (.compareItems v i j)) (Plain.perform .words (.compareItems v i j)) s p Agree := by
  refine textVector rep fun h ts _ _ live => ?_
  refine call rfl (VectorOwner.wp_get (v := .adopt .text h) live fun x lends st hst => ?_)
  refine call hst (VectorOwner.wp_get (v := .adopt .text h) live fun y lends' st hst => ?_)
  generalize ts[i.toNat]? = t at lends
  generalize ts[j.toNat]? = u at lends'
  cases lends with
  | none =>
    cases lends' with
    | none => exact done (rep.onStore st) hst
    | some => exact done (rep.onStore st) hst
  | some lends =>
    cases lends' with
    | none => exact done (rep.onStore st) hst
    | some lends' =>
      refine call hst (Place.wp_equals lends lends' fun st hst => ?_)
      exact done (rep.onStore st) hst

/-! ## Walks, and past owners -/

theorem walk (v : Nat) (steps : List CursorStep) :
    Sim (Session.perform (.walk v steps)) (Plain.perform .words (.walk v steps)) s p Agree := by
  refine peek rep .vectors fun h ⟨e, xs⟩ entry _ live => ?_
  refine call rfl (Walk.wp_start (v := .adopt e h) live fun st hst => ?_)
  exact change rep entry _ _ hst

theorem directPush (v : Nat) (x : AnyItem) :
    Sim (Session.perform (.directPush v x)) (Plain.perform .words (.directPush v x)) s p Agree := by
  obtain ⟨e, x⟩ := x
  refine vectorOf rep fun h xs entry _ live => ?_
  refine call rfl (Direct.wp_push live x fun st hst => ?_)
  rw [← Element.map_event_pushDeeds] at hst
  exact change rep entry _ _ hst

theorem directPop (v : Nat) :
    Sim (Session.perform (.directPop v)) (Plain.perform .words (.directPop v)) s p Agree := by
  refine peek rep .vectors fun h ⟨e, xs⟩ entry _ live => ?_
  refine call rfl (Direct.wp_pop live fun st hst => ?_)
  exact change rep entry _ _ hst

theorem directGet (v : Nat) (i : UInt64) :
    Sim (Session.perform (.directGet v i)) (Plain.perform .words (.directGet v i)) s p Agree := by
  refine peek rep .vectors fun h xs _ _ live => ?_
  refine call rfl (Direct.wp_get live i fun st hst => ?_)
  exact done (rep.onStore st) hst

theorem directGetMut (v : Nat) (i : UInt64) :
    Sim (Session.perform (.directGetMut v i)) (Plain.perform .words (.directGetMut v i)) s p Agree := by
  refine peek rep .vectors fun h xs _ _ live => ?_
  refine call rfl (Direct.wp_getMut live i fun st hst => ?_)
  exact done (rep.onStore st) hst

theorem directLen (v : Nat) :
    Sim (Session.perform (.directLen v)) (Plain.perform .words (.directLen v)) s p Agree := by
  refine peek rep .vectors fun h xs _ _ live => ?_
  refine call rfl (VectorCalls.wp_len live fun st hst => ?_)
  exact done (rep.onStore st) hst

end Sim

end Custody
