/-
  Custody.Proofs.TextSets — a set keeps one owner of each text, however it looks for it.

  A set compares a text with members of its hash. Which hasher it has, in which order it asks its members,
  and whether it asks some of another hash besides, is left open (`Lookup`): texts whose hashes collide are
  told apart by the comparison. Every owner that comes in stays or is given back, and the set keeps one of
  each text (`wp_gatherBy`).
-/
import Custody.Owner.TextSet
import Custody.Proofs.Owners

namespace Custody

/-- What a hasher makes of a text: it is fed the store's hash of it. -/
def Place.hashBy {α : Type} (hasher : UInt64 → α) (p : Place) : Call α := return hasher (← p.storeHash)

/-- How a set looks for a text. -/
structure Lookup where
  hasher : UInt64 → UInt64
  /-- The members to be compared with a text of the given hash, in the order in which they are asked. -/
  probe : UInt64 → TextSet → TextSet
  sound : ∀ {h s m}, m ∈ probe h s → m ∈ s
  complete : ∀ {h s m}, m ∈ s → m.1 = h → m ∈ probe h s

/-- A fresh hasher, and the members of the same hash, the youngest first. -/
def Lookup.standard : Lookup where
  hasher x := Hash.sip 0 0 (Hash.wordBytes x)
  probe h s := s.filter fun m => m.1 = h
  sound mem := (List.mem_filter.mp mem).1
  complete mem same := List.mem_filter.mpr ⟨mem, decide_eq_true same⟩

namespace TextSet

/-- Whether one of the members has the same text as `o`. -/
def meets : TextSet → Owner → Call Bool
  | [], _ => pure false
  | (_, o') :: rest, o => do
    if ← (Place.whole o'.handle).equals (.whole o.handle) then return true
    meets rest o

def insertBy (k : Lookup) (s : TextSet) (o : Owner) : Call TextSet := do
  let h ← (Place.whole o.handle).hashBy k.hasher
  if ← (k.probe h s).meets o then
    TextOwner.drop o
    pure s
  else pure ((h, o) :: s)

/-- Takes owners into a set, one after the other. -/
def gatherBy (k : Lookup) : TextSet → List Owner → Call TextSet
  | s, [] => pure s
  | s, o :: os => do gatherBy k (← s.insertBy k o) os

theorem holds_eq (h : UInt64) (o : Owner) : ∀ s : TextSet, s.holds h o = (Lookup.standard.probe h s).meets o
  | [] => rfl
  | (h', o') :: rest => by
    have later := holds_eq h o rest
    simp only [Lookup.standard] at later
    by_cases same : h' = h
    · simp only [holds, same, Lookup.standard, decide_true, List.filter_cons_of_pos, meets, if_true, later]
    · simp only [holds, same, Lookup.standard, List.filter_cons_of_neg, decide_false, Bool.false_eq_true,
        not_false_eq_true, if_false, later]

/-- A set of owned texts looks for them in the standard way. -/
theorem insert_eq (s : TextSet) (o : Owner) : s.insert o = s.insertBy .standard o := by
  unfold insert insertBy
  simp only [holds_eq]
  rfl

/-- The set of the given texts, each in the allocation of its handle. -/
def ofMembers (k : Lookup) (ms : List (Handle × String)) : TextSet :=
  ms.map fun m => (k.hasher (textHash m.2), .adopt m.1)

end TextSet

/-! ## Worlds without some of their handles -/

/-- The world in which none of the handles names anything. -/
def World.without (w : World) (hs : List Handle) : World :=
  { w with find := fun g => if g ∈ hs then none else w.find g }

namespace World

variable {w : World} (hs : List Handle)

@[simp] theorem without_nil : w.without [] = w := by simp [without]

theorem without_cons (h : Handle) : w.without (h :: hs) = (w.without hs).drop h :=
  ext_find (fun g => by by_cases e : g = h <;> simp [without, drop, e]) rfl rfl

theorem without_drop (h : Handle) : (w.drop h).without hs = (w.without hs).drop h :=
  ext_find (fun g => by by_cases e : g = h <;> simp [without, drop, e]) rfl rfl

theorem without_counts (es : List Event) : (w.counts es).without hs = (w.without hs).counts es := rfl

theorem without_without (hs' : List Handle) : (w.without hs).without hs' = w.without (hs' ++ hs) :=
  ext_find (fun g => by by_cases e : g ∈ hs <;> by_cases e' : g ∈ hs' <;> simp [without, e, e']) rfl rfl

theorem without_perm {hs hs' : List Handle} (perm : hs.Perm hs') : w.without hs = w.without hs' :=
  ext_find (fun g => by simp [without, perm.mem_iff]) rfl rfl

variable {hs}

theorem find_without_of_not_mem {g : Handle} (besides : g ∉ hs) : (w.without hs).find g = w.find g := by
  simp [without, besides]

/-- What is left is what was there besides. -/
theorem find_of_without {g : Handle} {o : Object} (live : (w.without hs).find g = some o) :
    g ∉ hs ∧ w.find g = some o := by
  by_cases mem : g ∈ hs
  · simp [without, mem] at live
  · exact ⟨mem, by simpa [without, mem] using live⟩

end World

/-! ## What sets do to the world -/

namespace TextSet

variable {w : World} {k : Lookup} {h : Handle} {t : String} {ms : List (Handle × String)}

/-- The comparison finds the text among those that are asked, and nothing else. -/
theorem wp_meets (live : w.find h = some (.text t)) (ps : TextSet)
    (told : ∀ m ∈ ps, ∃ u, w.find m.2.handle = some (.text u)) {Q : Bool → World → Prop}
    (post : ∀ b : Bool, (b ↔ ∃ m ∈ ps, w.find m.2.handle = some (.text t)) → Q b w) :
    wp (ps.meets (.adopt h)) Q w := by
  induction ps with
  | nil => exact wp_pure (post false (by simp))
  | cons m ps ih =>
    obtain ⟨u, there⟩ := told m List.mem_cons_self
    refine wp_bind (Place.wp_equals (World.textAt_whole there) (World.textAt_whole live) ?_)
    by_cases e : u = t
    · subst e
      rw [BEq.rfl]
      exact wp_pure (post true ⟨fun _ => ⟨m, List.mem_cons_self, there⟩, fun _ => rfl⟩)
    · rw [beq_eq_false_iff_ne.mpr e]
      refine ih (fun n hn => told n (List.mem_cons_of_mem _ hn)) fun b found => post b (found.trans ?_)
      have other : w.find m.2.handle ≠ some (.text t) := by
        rw [there]
        intro same
        cases same
        exact e rfl
      simp [other]

/-- Whatever is asked, the answer is whether the text is there. -/
theorem probe_meets (members : ∀ m ∈ ms, w.find m.1 = some (.text m.2)) :
    (∃ m ∈ k.probe (k.hasher (textHash t)) (ofMembers k ms), w.find m.2.handle = some (.text t)) ↔
      t ∈ ms.map (·.2) := by
  constructor
  · rintro ⟨m, mem, there⟩
    obtain ⟨n, hn, rfl⟩ := List.mem_map.mp (k.sound mem)
    have same := (members n hn).symm.trans there
    cases same
    exact List.mem_map_of_mem hn
  · intro mem
    obtain ⟨n, hn, rfl⟩ := List.mem_map.mp mem
    exact ⟨_, k.complete (List.mem_map_of_mem hn) rfl, members n hn⟩

/-- A text that is there already is given back, another one joins. -/
theorem wp_insertBy (live : w.find h = some (.text t)) (members : ∀ m ∈ ms, w.find m.1 = some (.text m.2))
    {Q : TextSet → World → Prop} (old : t ∈ ms.map (·.2) → Q (ofMembers k ms) ((w.drop h).counts [.textFree]))
    (new : t ∉ ms.map (·.2) → Q (ofMembers k ((h, t) :: ms)) w) :
    wp ((ofMembers k ms).insertBy k (.adopt h)) Q w := by
  have told : ∀ m ∈ k.probe (k.hasher (textHash t)) (ofMembers k ms), ∃ u, w.find m.2.handle = some (.text u) := by
    intro m mem
    obtain ⟨n, hn, rfl⟩ := List.mem_map.mp (k.sound mem)
    exact ⟨n.2, members n hn⟩
  refine wp_bind (wp_bind (TextCalls.wp_hash (World.textAt_whole live) (wp_pure ?_)))
  refine wp_bind (wp_meets live _ told fun found iff => ?_)
  rw [probe_meets members] at iff
  cases found with
  | true =>
    refine wp_bind (TextOwner.wp_drop live ?_)
    exact wp_pure (old (iff.mp rfl))
  | false => exact wp_pure (new fun mem => Bool.false_ne_true (iff.mpr mem))

/-- The set's end gives back each of its members. -/
theorem wp_drop (ms : List (Handle × String)) : ∀ {w : World}, (∀ m ∈ ms, w.find m.1 = some (.text m.2)) →
    (ms.map (·.1)).Nodup → ∀ {Q : Unit → World → Prop},
      Q () ((w.without (ms.map (·.1))).counts (List.replicate ms.length .textFree)) →
        wp (ofMembers k ms).drop Q w := by
  induction ms with
  | nil =>
    intro w _ _ Q post
    rw [List.map_nil, World.without_nil] at post
    exact wp_pure post
  | cons m ms ih =>
    intro w members apart Q post
    obtain ⟨besides, apart⟩ := List.nodup_cons.mp apart
    refine wp_bind (TextOwner.wp_drop (members m List.mem_cons_self) (ih ?_ apart ?_))
    · intro n hn
      have ne : n.1 ≠ m.1 := fun e => besides (List.mem_map.mpr ⟨n, hn, e⟩)
      rw [World.find_counts, World.find_drop_ne ne]
      exact members n (List.mem_cons_of_mem _ hn)
    · rw [World.without_counts, World.without_drop, ← World.without_cons, World.counts_counts]
      exact post

/-- Each owner that comes in stays or is given back, and one of each text stays. -/
theorem wp_gatherBy (ls : List (Handle × String)) : ∀ {w : World} (ms : List (Handle × String)),
    (∀ m ∈ ls ++ ms, w.find m.1 = some (.text m.2)) → ((ls ++ ms).map (·.1)).Nodup → (ms.map (·.2)).Nodup →
      ∀ {Q : TextSet → World → Prop},
        (∀ stay gone : List (Handle × String), (stay ++ gone).Perm (ls ++ ms) → (stay.map (·.2)).Nodup →
          (∀ t, t ∈ stay.map (·.2) ↔ t ∈ (ls ++ ms).map (·.2)) →
            Q (ofMembers k stay) ((w.without (gone.map (·.1))).counts (List.replicate gone.length .textFree))) →
          wp (gatherBy k (ofMembers k ms) (ls.map fun m => .adopt m.1)) Q w := by
  induction ls with
  | nil =>
    intro w ms _ _ distinct Q post
    have post := post ms [] (by rw [List.append_nil, List.nil_append]) distinct fun _ => .rfl
    rw [List.map_nil, World.without_nil] at post
    exact wp_pure post
  | cons l ls ih =>
    intro w ms live apart distinct Q post
    obtain ⟨besides, apart'⟩ := List.nodup_cons.mp apart
    have members : ∀ m ∈ ms, w.find m.1 = some (.text m.2) :=
      fun m hm => live m (List.mem_cons_of_mem _ (List.mem_append_right _ hm))
    refine wp_bind (wp_insertBy (live l List.mem_cons_self) members (fun old => ?_) fun new => ?_)
    · refine ih ms ?_ apart' distinct fun stay gone perm one same => ?_
      · intro m hm
        have ne : m.1 ≠ l.1 := fun e => besides (List.mem_map.mpr ⟨m, hm, e⟩)
        rw [World.find_counts, World.find_drop_ne ne]
        exact live m (List.mem_cons_of_mem _ hm)
      · have post := post stay (l :: gone) (List.perm_middle.trans (perm.cons l)) one fun t => ?_
        · rwa [List.map_cons, World.without_cons, List.length_cons, List.replicate_succ, ← List.singleton_append,
            ← World.counts_counts, ← World.without_drop, ← World.without_counts] at post
        · have known : t = l.2 → t ∈ (ls ++ ms).map (·.2) := by
            rintro rfl
            rw [List.map_append]
            exact List.mem_append_right _ old
          rw [same t, List.cons_append, List.map_cons, List.mem_cons]
          exact ⟨.inr, fun mem => mem.elim known id⟩
    · have order : (ls ++ l :: ms).Perm (l :: (ls ++ ms)) := List.perm_middle
      refine ih (l :: ms) (fun m hm => live m (order.subset hm)) ((order.map _).nodup_iff.mpr apart)
        (List.nodup_cons.mpr ⟨new, distinct⟩) fun stay gone perm one same => ?_
      refine post stay gone (perm.trans order) one fun t => ?_
      rw [same t]
      exact (order.map _).mem_iff

/-- Owners that are taken into a set which then ends are all given back. -/
theorem wp_collect (ls : List (Handle × String)) (live : ∀ l ∈ ls, w.find l.1 = some (.text l.2))
    (apart : (ls.map (·.1)).Nodup) :
    wp (gatherBy k [] (ls.map fun l => .adopt l.1)) (fun set w' => ∃ ms, set = ofMembers k ms ∧
      (∀ m ∈ ms, m ∈ ls ∧ w'.find m.1 = some (.text m.2)) ∧
      (ms.map (·.2)).Nodup ∧ (∀ t, t ∈ ms.map (·.2) ↔ t ∈ ls.map (·.2)) ∧
      wp set.drop (fun _ w'' =>
        w'' = (w.without (ls.map (·.1))).counts (List.replicate ls.length .textFree)) w') w := by
  have none : ls ++ [] = ls := List.append_nil ls
  refine wp_gatherBy ls [] (by rwa [none]) (by rwa [none]) .nil fun stay gone perm one same => ?_
  rw [none] at perm same
  have handles : (stay.map (·.1) ++ gone.map (·.1)).Perm (ls.map (·.1)) := by
    rw [← List.map_append]
    exact perm.map _
  obtain ⟨apart', -, besides⟩ := List.nodup_append.mp (handles.nodup_iff.mpr apart)
  have members : ∀ m ∈ stay, (w.without (gone.map (·.1))).find m.1 = some (.text m.2) := by
    intro m hm
    have kept : m.1 ∉ gone.map (·.1) := fun mem => besides _ (List.mem_map_of_mem hm) _ mem rfl
    rw [World.find_without_of_not_mem kept]
    exact live m (perm.subset (List.mem_append_left _ hm))
  refine ⟨stay, rfl, fun m hm => ⟨perm.subset (List.mem_append_left _ hm), members m hm⟩, one, same, ?_⟩
  refine wp_drop (w := (w.without _).counts _) stay members apart' ?_
  rw [World.without_counts, World.without_without, World.without_perm handles, World.counts_counts,
    List.replicate_append_replicate, ← perm.length_eq, List.length_append, Nat.add_comm]

end TextSet

end Custody
