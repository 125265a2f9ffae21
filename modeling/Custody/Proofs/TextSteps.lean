/-
  Custody.Proofs.TextSteps — the operations on texts do what they do on plain values.

  A lemma an operation; what several have in common is said once. `giveBack` ends a value, `settle`
  puts a taken one elsewhere, and `gather` takes texts into a set, whose duplicates are given back
  earlier than those of the plain list (`Gathered`).
-/
import Custody.Proofs.Simulation
import Custody.Proofs.TextSets

namespace Custody

/-- The answers are the same, and the session stands for the plain values again. -/
def Agree (x y : Answer) (s : Session) (p : Plain) : Prop := x = y ∧ Represents s s.store.world p

namespace Sim

variable {s : Session} {p : Plain}

theorem done {w : World} {x : Answer} (rep : Represents s w p) (real : s.store.world = w) :
    Sim (Pure.pure x) (Pure.pure x) s p Agree := pure ⟨rfl, by rwa [real]⟩

/-- A value that was taken is put elsewhere, in the allocation that it has. -/
theorem settle (k : Shelf) {w : World} {h : Handle} {v : k.Value} (rep : Represents s (w.drop h) p)
    (live : w.find h = some (k.object v)) (real : s.store.world = w) :
    Sim (k.table.bind (k.entry h v) >>= fun i => Pure.pure (.slot i))
      (k.plain.bind v >>= fun i => Pure.pure (.slot i)) s p Agree := by
  refine add rep k (World.find_drop_self ..) fun i rep => ?_
  rw [World.put_drop, World.put_self live] at rep
  apply done rep
  rw [Shelf.store_set, real]

/-- An owned text compares the same in whatever ways it is reached. -/
theorem equalsText {α β : Type} {h : Handle} {t : String} (u : String) {w : World}
    (live : w.find h = some (.text t)) (ways : List Access) :
    ∀ {s : Session} {k : List Bool → Session.Act α} {b : Plain.Act β}
      {Q : α → β → Session → Plain → Prop}, s.store.world = w →
      (∀ st, st.world = w →
        Sim (k (List.replicate ways.length (Wire.words.text t == u))) b { s with store := st } p Q) →
      Sim ((ways.mapM fun via => Session.call (((Owner.adopt h).reach via).equalsText u)) >>= k) b s p Q := by
  induction ways with
  | nil => intro s k b Q real rest; exact rest s.store real
  | cons via ways ih =>
    intro s k b Q real rest
    rw [List.mapM_cons, bind_assoc, show (Owner.adopt h).reach via = .whole h by cases via <;> rfl]
    refine call real (Place.wp_equalsText (World.textAt_whole live) fun st hst => ?_)
    rw [bind_assoc]
    exact ih hst fun st hst => rest st hst

section
variable (rep : Represents s s.store.world p)

include rep

/-- The end of a value: its allocation goes with it, and the deeds say so. -/
theorem giveBack (k : Shelf) {i : Nat} (f : k.Entry → Call Unit) (ds : k.Value → List Deed)
    (frees : ∀ {h v w}, w.find h = some (k.object v) → ∀ {Q : Unit → World → Prop},
      Q () ((w.drop h).counts ((ds v).map Deed.event)) → wp (f (k.entry h v)) Q w) :
    Sim (k.table.take i >>= fun x => Session.call (f x) >>= fun _ => Pure.pure .done)
      (k.plain.take i >>= fun v => Plain.did (ds v) >>= fun _ => Pure.pure .done) s p Agree := by
  refine take rep k fun h v value live rep => ?_
  refine call (congrArg Store.world (Shelf.store_set ..)) (frees live fun st hst => ?_)
  apply modify
  exact done ((rep.did (ds v)).onStore st) hst

/-- A text is edited where it lies, and shown. -/
theorem editWhole (k : Shelf) {i : Nat} {h : Handle} {v : k.Value} {t : String}
    (entry : (k.table.of s).get? i = some (k.entry h v)) (live : s.store.world.find h = some (.text t))
    (edits : List Edit) (v' : k.Value) (like : k.entry h v' = k.entry h v)
    (text : k.object v' = .text (edits.foldl Wire.words.edit t)) :
    Sim (Session.call ((Place.whole h).editAll edits) >>= fun _ =>
        Session.call (Place.whole h).text >>= fun u => Pure.pure (.text u))
      (k.plain.put i v' >>= fun _ => Pure.pure (.text (Wire.words.text (edits.foldl Wire.words.edit t))))
      s p Agree := by
  refine call rfl (Place.wp_editAll edits (World.textAt_whole live) fun st hst => ?_)
  apply modify
  refine call hst (Place.wp_text (World.textAt_whole (World.find_put_self ..)) fun st' hst' => ?_)
  have edited := rep.write entry v' like
  rw [text] at edited
  exact done (edited.onStore st') hst'

/-! ## Settings and ledger -/

theorem configure (settings : Settings) :
    Sim (Session.perform (.configure settings)) (Plain.perform .words (.configure settings)) s p Agree := by
  refine call rfl (Store.wp_configure fun st hst => ?_)
  apply modify
  have now : st.settings = settings := congrArg World.settings hst
  refine .inl ⟨_, _, _, _, rfl, rfl, congrArg Answer.settings now, ?_⟩
  show Represents { s with store := st } st.world _
  rw [hst]
  exact (rep.onStore st).configured settings

theorem resetLedger : Sim (Session.perform .resetLedger) (Plain.perform .words .resetLedger) s p Agree :=
  .inl ⟨_, _, _, _, rfl, rfl, rfl, (rep.onStore _).reset⟩

theorem markLedger : Sim (Session.perform .markLedger) (Plain.perform .words .markLedger) s p Agree := by
  refine .inl ⟨_, _, _, _, rfl, rfl, rfl, ?_⟩
  show Represents { s with mark := s.store.world.ledger } s.store.world { p with mark := .ofDeeds p.deeds }
  rw [rep.ledger]
  exact rep.marked _

theorem ledgerSinceMark :
    Sim (Session.perform .ledgerSinceMark) (Plain.perform .words .ledgerSinceMark) s p Agree := by
  refine get (pure ⟨?_, rep⟩)
  show Answer.ledger (s.store.world.ledger.since s.mark) = _
  rw [rep.ledger, rep.mark]

/-! ## Owned texts -/

theorem newText : Sim (Session.perform .newText) (Plain.perform .words .newText) s p Agree := by
  refine call rfl (TextOwner.wp_new fun h fresh st hst => ?_)
  apply modify
  refine add ((rep.did [.created]).onStore st) .texts fresh fun i rep => ?_
  exact done rep hst

theorem textFrom (t : String) :
    Sim (Session.perform (.textFrom t)) (Plain.perform .words (.textFrom t)) s p Agree := by
  refine call rfl (TextOwner.wp_ofText fun h fresh st hst => ?_)
  apply modify
  refine add ((rep.did [.created]).onStore st) .texts fresh fun i rep => ?_
  exact done rep hst

theorem readText (i : Nat) (via : Access) :
    Sim (Session.perform (.readText i via)) (Plain.perform .words (.readText i via)) s p Agree := by
  refine peek rep .texts fun h t _ _ live => ?_
  rw [show Owner.reach (Shelf.texts.entry h t) via = .whole h by cases via <;> rfl]
  refine call rfl (Place.wp_read (World.textAt_whole live) fun st hst => ?_)
  exact done (rep.onStore st) hst

theorem editText (i : Nat) (via : Access) (edits : List Edit) :
    Sim (Session.perform (.editText i via edits)) (Plain.perform .words (.editText i via edits)) s p Agree := by
  refine peek rep .texts fun h t entry _ live => ?_
  rw [show Owner.reach (Shelf.texts.entry h t) via = .whole h by cases via <;> rfl]
  exact editWhole rep .texts entry live edits _ rfl rfl

theorem compareTexts (i j : Nat) :
    Sim (Session.perform (.compareTexts i j)) (Plain.perform .words (.compareTexts i j)) s p Agree := by
  refine peek rep .texts fun h t _ _ live => ?_
  refine peek rep .texts fun g u _ _ live' => ?_
  have there := World.textAt_whole live
  have there' := World.textAt_whole live'
  refine call rfl (Place.wp_equals there there' fun st hst => ?_)
  refine call hst (Place.wp_equals there there' fun st' hst' => ?_)
  exact done (rep.onStore st') hst'

theorem compareWithText (i : Nat) (u : String) :
    Sim (Session.perform (.compareWithText i u)) (Plain.perform .words (.compareWithText i u)) s p Agree := by
  refine peek rep .texts fun h t _ _ live => ?_
  refine equalsText u live _ rfl fun st hst => ?_
  exact done (rep.onStore st) hst

theorem hashText (i : Nat) :
    Sim (Session.perform (.hashText i)) (Plain.perform .words (.hashText i)) s p Agree := by
  refine peek rep .texts fun h t _ _ live => ?_
  refine call rfl (TextCalls.wp_hash (World.textAt_whole live) fun st hst => ?_)
  exact done (rep.onStore st) hst

theorem dropText (i : Nat) :
    Sim (Session.perform (.dropText i)) (Plain.perform .words (.dropText i)) s p Agree :=
  giveBack rep .texts TextOwner.drop (fun _ => [.freed]) TextOwner.wp_drop

theorem releaseText (i : Nat) :
    Sim (Session.perform (.releaseText i)) (Plain.perform .words (.releaseText i)) s p Agree := by
  refine take rep .texts fun h t _ live rep => ?_
  refine call rfl (TextOwner.wp_release fun st hst => ?_)
  exact settle .released (rep.onStore st) live hst

theorem adoptText (i : Nat) :
    Sim (Session.perform (.adoptText i)) (Plain.perform .words (.adoptText i)) s p Agree := by
  refine take rep .released fun h t _ live rep => ?_
  exact settle .texts rep live rfl

theorem freeReleased (i : Nat) :
    Sim (Session.perform (.freeReleased i)) (Plain.perform .words (.freeReleased i)) s p Agree :=
  giveBack rep .released TextCalls.free (fun _ => [.freed]) TextCalls.wp_free

/-! ## Plain owners -/

theorem adoptOwned (i : Nat) :
    Sim (Session.perform (.adoptOwned i)) (Plain.perform .words (.adoptOwned i)) s p Agree := by
  refine take rep .released fun h t _ live rep => ?_
  exact settle .owned rep live rfl

theorem readOwned (i : Nat) :
    Sim (Session.perform (.readOwned i)) (Plain.perform .words (.readOwned i)) s p Agree := by
  refine peek rep .owned fun h t _ _ live => ?_
  have there := World.textAt_whole live
  refine call rfl (Place.wp_text there fun st hst => ?_)
  refine call hst (Place.wp_text there fun st' hst' => ?_)
  exact done (rep.onStore st') hst'

theorem editOwned (i : Nat) (edits : List Edit) :
    Sim (Session.perform (.editOwned i edits)) (Plain.perform .words (.editOwned i edits)) s p Agree := by
  refine peek rep .owned fun h t entry _ live => ?_
  exact editWhole rep .owned entry live edits _ rfl rfl

theorem dropOwned (i : Nat) :
    Sim (Session.perform (.dropOwned i)) (Plain.perform .words (.dropOwned i)) s p Agree :=
  giveBack rep .owned TextOwner.drop (fun _ => [.freed]) TextOwner.wp_drop

theorem releaseOwned (i : Nat) :
    Sim (Session.perform (.releaseOwned i)) (Plain.perform .words (.releaseOwned i)) s p Agree := by
  refine take rep .owned fun h t _ live rep => ?_
  refine call rfl (TextOwner.wp_release fun st hst => ?_)
  exact settle .released (rep.onStore st) live hst

end

/-! ## Distinct texts -/

/-- Texts that were taken into a set: one of each kind lies in an allocation of its own, and the others
    were given back. -/
structure Gathered (s : Session) (w : World) (p : Plain) (ms : List (Handle × String)) (ts : List String) : Prop where
  rep : Represents s w p
  members : ∀ m ∈ ms, s.store.world.find m.1 = some (.text m.2)
  apart : (ms.map (·.1)).Nodup
  distinct : (ms.map (·.2)).Nodup
  same : ∀ t, t ∈ ms.map (·.2) ↔ t ∈ ts
  fewer : ms.length ≤ ts.length
  real : s.store.world.without (ms.map (·.1)) = w.counts (List.replicate (ts.length - ms.length) .textFree)

namespace Gathered

variable {w : World} {h : Handle} {t : String} {ms : List (Handle × String)} {ts : List String} {s' : Session}
  {p' : Plain} (g : Gathered s w p ms ts) (live : w.find h = some (.text t)) (rep : Represents s' (w.drop h) p')

include g live

/-- The text lies beside the members. -/
theorem besides : h ∉ ms.map (·.1) ∧ s.store.world.find h = some (.text t) := by
  apply World.find_of_without
  rw [g.real]
  exact live

include rep

/-- The text is there already, and was given back. -/
theorem again (old : t ∈ ms.map (·.2))
    (real : s'.store.world = (s.store.world.drop h).counts [.textFree]) :
    Gathered s' (w.drop h) p' ms (ts ++ [t]) := by
  have fewer := g.fewer
  refine ⟨rep, fun m hm => ?_, g.apart, g.distinct, fun u => ?_, ?_, ?_⟩
  · have ne : m.1 ≠ h := fun e => (g.besides live).1 (List.mem_map.mpr ⟨m, hm, e⟩)
    rw [real, World.find_counts, World.find_drop_ne ne]
    exact g.members m hm
  · rw [List.mem_append, List.mem_singleton, g.same u]
    refine ⟨.inl, fun there => ?_⟩
    rcases there with there | e
    · exact there
    · exact (g.same u).mp (e ▸ old)
  · rw [List.length_append, List.length_singleton]; omega
  · have one : (ts ++ [t]).length - ms.length = ts.length - ms.length + 1 := by
      rw [List.length_append, List.length_singleton]; omega
    rw [real, World.without_counts, World.without_drop, g.real, World.drop_counts, World.counts_counts, one,
      List.replicate_succ']

/-- The text is the first of its kind, and stays. -/
theorem joined (new : t ∉ ms.map (·.2)) (real : s'.store.world = s.store.world) :
    Gathered s' (w.drop h) p' ((h, t) :: ms) (ts ++ [t]) := by
  obtain ⟨besides, live⟩ := g.besides live
  have fewer := g.fewer
  refine ⟨rep, ?_, List.nodup_cons.mpr ⟨besides, g.apart⟩, List.nodup_cons.mpr ⟨new, g.distinct⟩, fun u => ?_, ?_, ?_⟩
  · rw [real]
    exact List.forall_mem_cons.mpr ⟨live, g.members⟩
  · rw [List.map_cons, List.mem_cons, List.mem_append, List.mem_singleton, g.same u, or_comm]
  · rw [List.length_append, List.length_singleton, List.length_cons]; omega
  · have none : (ts ++ [t]).length - ((h, t) :: ms).length = ts.length - ms.length := by
      rw [List.length_append, List.length_singleton, List.length_cons]; omega
    rw [real, List.map_cons, World.without_cons, g.real, none, World.drop_counts]

end Gathered

/-- Taking texts into a set is taking them out of their slots. -/
theorem gather (slots : List Nat) : ∀ {s : Session} {w : World} {p : Plain} {ms : List (Handle × String)}
    {ts : List String}, Gathered s w p ms ts →
      Sim (Session.gatherSet (.ofMembers .standard ms) slots) (Plain.gather slots) s p fun x y s p =>
        ∃ w ms, x = (.ofMembers .standard ms, y.2) ∧ Gathered s w p ms (ts ++ y.1) := by
  induction slots with
  | nil =>
    intro s w p ms ts g
    exact pure ⟨w, ms, rfl, by rwa [List.append_nil]⟩
  | cons i slots ih =>
    intro s w p ms ts g
    refine get ?_
    cases value : p.texts.get? i with
    | none =>
      rw [show s.texts.get? i = none from g.rep.absent (k := .texts) value]
      exact pure ⟨w, ms, rfl, by rwa [List.append_nil]⟩
    | some t =>
      obtain ⟨h, entry, -⟩ := g.rep.value (k := .texts) value
      rw [show s.texts.get? i = some (.adopt h) from entry]
      refine take g.rep .texts fun h t _ live rep => ?_
      have go_on : ∀ {s : Session} {p : Plain} {ms : List (Handle × String)},
          Gathered s (w.drop h) p ms (ts ++ [t]) →
            Sim (Session.gatherSet (.ofMembers .standard ms) slots)
              (Plain.gather slots >>= fun r => Pure.pure (t :: r.1, r.2)) s p fun x y s p =>
                ∃ w ms, x = (.ofMembers .standard ms, y.2) ∧ Gathered s w p ms (ts ++ y.1) := by
        intro s p ms g
        refine andThen (mono (ih g) ?_)
        intro x r s p post
        obtain ⟨w, ms, rfl, g⟩ := post
        exact pure ⟨w, ms, rfl, by rwa [List.append_assoc] at g⟩
      rw [TextSet.insert_eq]
      refine call rfl (TextSet.wp_insertBy (g.besides live).2 g.members (fun old st hst => ?_) fun new st hst => ?_)
      · exact go_on (g.again live (rep.onStore st) old hst)
      · exact go_on (g.joined live (rep.onStore st) new hst)

theorem countDistinct (rep : Represents s s.store.world p) (slots : List Nat) :
    Sim (Session.perform (.countDistinct slots)) (Plain.perform .words (.countDistinct slots)) s p Agree := by
  have none : Gathered s s.store.world p [] [] :=
    ⟨rep, List.forall_mem_nil _, .nil, .nil, fun _ => .rfl, Nat.le_refl _, World.without_nil⟩
  refine bind (mono (gather slots none) ?_)
  intro x r s p post
  obtain ⟨ts, all⟩ := r
  obtain ⟨w, ms, rfl, g⟩ := post
  rw [List.nil_append] at g
  have kinds : ms.length = ts.dedup.length := by
    have perm : (ms.map (·.2)).Perm ts.dedup :=
      (List.perm_ext_iff_of_nodup g.distinct ts.nodup_dedup).mpr fun t => by rw [g.same t, List.mem_dedup]
    rw [← perm.length_eq, List.length_map]
  refine call rfl (TextSet.wp_drop ms g.members g.apart fun st hst => ?_)
  apply modify
  have fewer := g.fewer
  have all_freed : (List.replicate ts.length Deed.freed).map Deed.event =
      List.replicate (ts.length - ms.length) .textFree ++ List.replicate ms.length .textFree := by
    rw [List.map_replicate, List.replicate_append_replicate, Nat.sub_add_cancel fewer]; rfl
  have rep := (g.rep.did (List.replicate ts.length .freed)).onStore st
  rw [all_freed, ← World.counts_counts, ← g.real] at rep
  have size : (TextSet.ofMembers .standard ms).length = ts.dedup.length := by
    rw [TextSet.ofMembers, List.length_map, kinds]
  show Sim (Pure.pure (if all then Answer.number (UInt64.ofNat (TextSet.ofMembers _ ms).length) else _)) _ _ _ _
  rw [size]
  exact done rep hst

end Sim

end Custody
