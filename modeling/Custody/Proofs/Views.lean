/-
  Custody.Proofs.Views — all views of a text read the same text.

  A text is looked at in many ways: through its owner and the owner's loans, or as an item of the vector that
  it is in, fetched or walked to. Each way leads to the place where the text lies (`Session.lend`), and what
  is read there is what its history tells (`views_agree`): the bytes of the views are the encoding of that
  text and pass every check, and trimming takes off blanks and nothing else.
-/
import Custody.Proofs.Chronicle
import Custody.Proofs.Faithful
import Custody.Proofs.Trimming
import Custody.Proofs.WellFormed

namespace Custody

/-! ## What is read at a place -/

/-- Everything that can be read at the place agrees on the text, and reading changes nothing. -/
structure World.Shows (w : World) (p : Place) (t : String) : Prop where
  text : wp p.text (fun u w' => u = t ∧ w' = w) w
  display : wp p.display (fun u w' => u = t ∧ w' = w) w
  len : wp p.len (fun n w' => n.toNat = (Text.bytesOf t).length ∧ w' = w) w
  isEmpty : wp p.isEmpty (fun b w' => (b ↔ t = "") ∧ w' = w) w
  /-- The view of the text passes the check, so that it may be trusted. -/
  view : wp p.view (fun v w' =>
    v.text = .ok t ∧ v.trusted = t ∧ v.len.toNat = (Text.bytesOf t).length ∧ w' = w) w
  /-- The view of the trimmed text passes it too. -/
  trimView : wp (TextCalls.trim p) (fun v w' => v.text = .ok v.trusted ∧ Text.Stripped t v.trusted ∧ w' = w) w
  trimmed : wp p.trimmed (fun m w' => Text.Stripped t m ∧ Text.trim m = m ∧ w' = w) w

section
variable {w : World} {p : Place} {t : String}

theorem World.shows (there : w.textAt p = some t) (fits : Wire.Fits t) : w.Shows p t := by
  have len : (UInt64.ofNat t.utf8ByteSize).toNat = (Text.bytesOf t).length := by
    rw [Text.length_bytesOf]
    exact Wire.words_count fits
  have trusted {u : String} (fits : Wire.Fits u) : (TextView.ofText u).trusted = u := Wire.words_text fits
  constructor
  case text => exact Place.wp_text there ⟨Wire.words_text fits, rfl⟩
  case display => exact Place.wp_text there ⟨Wire.words_text fits, rfl⟩
  case len => exact Place.wp_len there ⟨len, rfl⟩
  case isEmpty =>
    refine Place.wp_isEmpty there ⟨?_, rfl⟩
    rw [beq_iff_eq, ← UInt64.toNat_inj, len, Text.length_bytesOf]
    exact String.utf8ByteSize_eq_zero_iff
  case view =>
    exact TextCalls.wp_view there ⟨TextView.text_ofText fits, trusted fits, len, rfl⟩
  case trimView =>
    have short : Wire.Fits (Text.trim t) := Wire.fits_trim fits
    refine TextCalls.wp_trim there ⟨?_, ?_, rfl⟩
    · rw [trusted short]
      exact TextView.text_ofText short
    · rw [trusted short]
      exact Text.stripped_trim t
  case trimmed =>
    refine Place.wp_trimmed there ?_
    rw [Wire.words_text (Wire.fits_trim fits)]
    exact ⟨Text.stripped_trim t, Text.trim_trim t, rfl⟩

end

/-! ## Ways to look at a text -/

/-- A step of a cursor. -/
inductive Stride where
  | next
  | nextBack
  | nth (n : UInt64)
  | nthBack (n : UInt64)

def Stride.on {m : Type → Type} [Monad m] {α : Type} (fetch : UInt64 → m (Option α)) (c : Cursor) :
    Stride → m (Option α × Cursor)
  | next => c.next fetch
  | nextBack => c.nextBack fetch
  | nth n => c.nth fetch n
  | nthBack n => c.nthBack fetch n

inductive Way where
  /-- The owner in a slot, or a loan from it. -/
  | owner (slot : Nat) (via : Access)
  /-- An exclusive loan, made a shared one. -/
  | ownerAsShared (slot : Nat)
  /-- A loan from a plain owner. -/
  | owned (slot : Nat)
  | ownedMut (slot : Nat)
  | ownedAsShared (slot : Nat)
  /-- An item of a vector. -/
  | get (vector : Nat) (index : UInt64)
  | getMut (vector : Nat) (index : UInt64)
  | itemAt (vector : Nat) (index : UInt64)
  /-- The item that a cursor, wherever it stands, comes to. -/
  | walk (vector : Nat) (c : Cursor) (stride : Stride)

namespace Session

variable (s : Session)

/-- Asks a vector of texts for one of them. -/
def lendItem (v : Nat) (f : VectorOwner .text → Call (Option Place)) : Call (Option Place) :=
  match s.vectors.get? v with
  | some ⟨.text, owner⟩ => f owner
  | _ => pure none

/-- The place where the text lies that is looked at. -/
def lend : Way → Call (Option Place)
  | .owner i via => pure ((s.texts.get? i).map (·.reach via))
  | .ownerAsShared i => pure ((s.texts.get? i).map (·.borrowMut.asShared.place))
  | .owned i => pure ((s.owned.get? i).map (·.borrow.place))
  | .ownedMut i => pure ((s.owned.get? i).map (·.borrowMut.place))
  | .ownedAsShared i => pure ((s.owned.get? i).map (·.borrowMut.asShared.place))
  | .get v i => s.lendItem v (·.get i)
  | .getMut v i => s.lendItem v (·.getMut i)
  | .itemAt v i => s.lendItem v fun owner => return (← owner.itemAt i).toOption
  | .walk v c stride => s.lendItem v fun owner => return (← stride.on owner.get c).1

end Session

namespace Chronicle

variable (c : Chronicle)

/-- Asks the histories of a vector's texts for one of them. -/
def askItems (v : Nat) (f : List History → Option History) : Option History :=
  match (c .vectors).get? v with
  | some ⟨.text, hs⟩ => f hs
  | _ => none

def fetch (hs : List History) (i : UInt64) : Id (Option History) := hs[i.toNat]?

/-- The history of the text that is looked at. -/
def find? : Way → Option History
  | .owner i _ | .ownerAsShared i => (c .texts).get? i
  | .owned i | .ownedMut i | .ownedAsShared i => (c .owned).get? i
  | .get v i | .getMut v i | .itemAt v i => c.askItems v fun hs => hs[i.toNat]?
  | .walk v d stride => c.askItems v fun hs => Prod.fst (stride.on (m := Id) (fetch hs) d)

end Chronicle

/-! ## Each way leads to the text of the history -/

theorem Stride.steps {w : World} {α β : Type} {fetch : UInt64 → Call (Option α)} {f : UInt64 → Id (Option β)}
    {R : α → β → Prop} (fetches : Cursor.Fetches w fetch f R) (stride : Stride) :
    Cursor.Steps w (stride.on fetch) (stride.on f) R := by
  cases stride with
  | next => exact Cursor.steps_next fetches
  | nextBack => exact Cursor.steps_nextBack fetches
  | nth n => exact Cursor.steps_nth fetches n
  | nthBack n => exact Cursor.steps_nthBack fetches n

/-- The place holds what the history tells. -/
def World.Holds (w : World) (p : Place) (h : History) : Prop := w.textAt p = some h.text

section
variable {s : Session} {c : Chronicle} {p : Plain} (rep : Represents s s.store.world p) (tracks : c.Tracks p)

include rep tracks

/-- A slot holds what the chronicle tells of it. -/
theorem Represents.told (k : Shelf) (i : Nat) :
    Option.Rel (fun x y => k.Stands s.store.world x (k.reveal y)) ((k.table.of s).get? i) ((c k).get? i) := by
  cases at_i : (c k).get? i with
  | none =>
    rw [rep.absent (tracks.absent at_i)]
    exact .none
  | some y =>
    obtain ⟨a, entry, live⟩ := rep.value (tracks.get? at_i)
    rw [entry]
    exact .some ⟨a, rfl, live⟩

/-- What is asked of a vector is asked of a live one, which has the texts of its histories. -/
theorem wp_lendItem {v : Nat} {f : VectorOwner .text → Call (Option Place)} {g : List History → Option History}
    (asks : ∀ owner hs, s.store.world.find owner.handle = some (.ofList .text (hs.map History.text)) →
      wp (f owner) (fun x w => Option.Rel s.store.world.Holds x (g hs) ∧ w = s.store.world) s.store.world) :
    wp (s.lendItem v f) (fun x w => Option.Rel s.store.world.Holds x (c.askItems v g) ∧ w = s.store.world)
      s.store.world := by
  have told : Option.Rel _ (s.vectors.get? v) ((c .vectors).get? v) := rep.told tracks .vectors v
  unfold Session.lendItem Chronicle.askItems
  generalize s.vectors.get? v = x at told
  generalize (c .vectors).get? v = y at told
  cases told with
  | none => exact wp_pure ⟨.none, rfl⟩
  | @some x y told =>
    obtain ⟨e, xs⟩ := y
    obtain ⟨a, rfl, live⟩ := told
    cases e with
    | text => exact asks _ xs live
    | scalar q => exact wp_pure ⟨.none, rfl⟩

end

/-- An owner of a text leads to the text, in whatever way it is reached. -/
theorem reach_holds {w : World} {x : Option Owner} {y : Option History}
    (told : Option.Rel (fun o h => ∃ a, o = .adopt a ∧ w.find a = some (.text h.text)) x y) (f : Owner → Place)
    (whole : ∀ a, f (.adopt a) = .whole a) : Option.Rel w.Holds (x.map f) y := by
  cases told with
  | none => exact .none
  | some told =>
    obtain ⟨a, rfl, live⟩ := told
    rw [Option.map_some, whole]
    exact .some (World.textAt_whole live)

/-- Items that are lent hold what the histories tell. -/
theorem lends_holds {w : World} {x : Option Place} {hs : List History} {i : UInt64}
    (lends : Option.Rel (Element.text.Lends w) x (hs.map History.text)[i.toNat]?) :
    Option.Rel w.Holds x hs[i.toNat]? := by
  rw [List.getElem?_map] at lends
  generalize hs[i.toNat]? = y at lends
  cases y with
  | none => cases lends; exact .none
  | some h => cases lends with | some lends => exact .some lends

theorem fetches_holds {w : World} {owner : VectorOwner .text} {hs : List History}
    (live : w.find owner.handle = some (.ofList .text (hs.map History.text))) :
    Cursor.Fetches w owner.get (Chronicle.fetch hs) w.Holds :=
  fun _ _ post => VectorOwner.wp_get live fun x lends => post x (lends_holds lends)

theorem lend_holds {s : Session} {c : Chronicle} {p : Plain} (rep : Represents s s.store.world p)
    (tracks : c.Tracks p) (way : Way) :
    wp (s.lend way) (fun x w => Option.Rel s.store.world.Holds x (c.find? way) ∧ w = s.store.world)
      s.store.world := by
  cases way with
  | owner i via =>
    exact wp_pure ⟨reach_holds (rep.told tracks .texts i) _ (fun a => by cases via <;> rfl), rfl⟩
  | ownerAsShared i => exact wp_pure ⟨reach_holds (rep.told tracks .texts i) _ fun _ => rfl, rfl⟩
  | owned i => exact wp_pure ⟨reach_holds (rep.told tracks .owned i) _ fun _ => rfl, rfl⟩
  | ownedMut i => exact wp_pure ⟨reach_holds (rep.told tracks .owned i) _ fun _ => rfl, rfl⟩
  | ownedAsShared i => exact wp_pure ⟨reach_holds (rep.told tracks .owned i) _ fun _ => rfl, rfl⟩
  | get v i =>
    refine wp_lendItem rep tracks fun owner hs live => ?_
    exact VectorOwner.wp_get live fun x lends => ⟨lends_holds lends, rfl⟩
  | getMut v i =>
    refine wp_lendItem rep tracks fun owner hs live => ?_
    exact VectorOwner.wp_getMut live fun x lends => ⟨lends_holds lends, rfl⟩
  | itemAt v i =>
    refine wp_lendItem rep tracks fun owner hs live => ?_
    refine wp_bind (VectorOwner.wp_itemAt live (fun x y at_i lends => ?_) fun out => ?_)
    · have lent : Option.Rel (Element.text.Lends s.store.world) (some x) (hs.map History.text)[i.toNat]? := by
        rw [at_i]
        exact .some lends
      exact wp_pure ⟨lends_holds lent, rfl⟩
    · have lent : Option.Rel (Element.text.Lends s.store.world) none (hs.map History.text)[i.toNat]? := by
        rw [out]
        exact .none
      exact wp_pure ⟨lends_holds lent, rfl⟩
  | walk v d stride =>
    refine wp_lendItem rep tracks fun owner hs live => ?_
    refine wp_bind (stride.steps (fetches_holds live) d _ fun x lends => ?_)
    exact wp_pure ⟨lends, rfl⟩

/-! ## Sizes -/

/-- Whatever is held fits. -/
theorem Represents.object_fits {s : Session} {w : World} {p : Plain} (rep : Represents s w p) (fits : p.Fits)
    {h : Handle} {o : Object} (live : w.find h = some o) :
    (∀ t, o = .text t → Wire.Fits t) ∧
      ∀ ts : List String, o = .ofList .text ts → ∀ t ∈ ts, Wire.Fits t := by
  obtain ⟨⟨k, i⟩, held⟩ := rep.kept live
  obtain ⟨v, at_i, live'⟩ := rep.live held
  obtain rfl : o = k.object v := Option.some.inj (live.symm.trans live')
  constructor
  · intro t text
    cases k with
    | texts => cases text; exact fits.texts.get at_i
    | owned => cases text; exact fits.owned.get at_i
    | released => cases text; exact fits.released.get at_i
    | vectors | releasedVectors => cases text
  · intro ts items t mem
    cases k with
    | texts | owned | released => cases items
    | vectors =>
      obtain rfl : v = ⟨.text, ts⟩ := Shelf.object_inj (k := .vectors) items
      exact (fits.vectors.get at_i).2 t mem
    | releasedVectors =>
      obtain rfl : v = ⟨.text, ts⟩ := Shelf.object_inj (k := .releasedVectors) items
      exact (fits.releasedVectors.get at_i).2 t mem

theorem Represents.textAt_fits {s : Session} {w : World} {p : Plain} (rep : Represents s w p) (fits : p.Fits)
    {place : Place} {t : String} (there : w.textAt place = some t) : Wire.Fits t := by
  cases place with
  | whole h => exact (rep.object_fits fits (World.find_of_textAt_whole there)).1 t rfl
  | item v i =>
    obtain ⟨ts, live, at_i⟩ := World.find_of_textAt_item there
    exact (rep.object_fits fits live).2 ts rfl t (List.mem_of_getElem? at_i)

/-- After any operations, each way to look at a text finds a place if there is such a text, and everything that
    is read there is what the history of the text tells. -/
theorem views_agree (a : Allocator) (settings : Settings) (ops : List Op)
    (fits : ({ Plain.start with settings } : Plain).FitsAlong ops) :
    ∃ answers s, (Session.startOn (.fresh a settings)).run ops = .ok (answers, s) ∧ ∀ way,
      wp (s.lend way) (fun place w => w = s.store.world ∧
        Option.Rel (fun place h => w.Shows place (History.text h)) place ((Chronicle.start.run ops).find? way))
        s.store.world := by
  obtain ⟨s, run, rep⟩ := start_represents a settings ops
  rw [Plain.run_fits ops fits] at run rep
  have tracks := run_tracks ops (start_tracks settings)
  refine ⟨_, s, run, fun way => wp_mono (lend_holds rep tracks way) fun place w found => ?_⟩
  obtain ⟨found, rfl⟩ := found
  refine ⟨rfl, ?_⟩
  generalize (Chronicle.start.run ops).find? way = h at found
  cases found with
  | none => exact .none
  | some holds => exact .some (World.shows holds (rep.textAt_fits fits.end holds))

/-- For example, a text that was cleared where it lies in a vector, found there by a walk from the back. -/
theorem views_agree_in_vector :
    ∃ answers s, (Session.startOn (.fresh .growing .initial)).run
        [.textFrom "a", .newVector .text, .pushText 0 0, .editItem 0 0 [.push "b", .clear, .push "é\u00a0"]] =
          .ok (answers, s) ∧
      ∃ place st, (s.lend (.walk 0 ⟨0, 1⟩ .nextBack)).run s.store = .ok (some place, st) ∧
        s.store.world.Shows place "é\u00a0" := by
  obtain ⟨answers, s, run, views⟩ := views_agree .growing .initial
    [.textFrom "a", .newVector .text, .pushText 0 0, .editItem 0 0 [.push "b", .clear, .push "é\u00a0"]]
    ⟨by decide, show Wire.Fits "a" by decide, by decide, trivial, by decide, trivial, by decide,
      show ∀ edit ∈ [Edit.push "b", .clear, .push "é\u00a0"], edit.Fits by simp [Edit.Fits]; decide,
      show Plain.Fits _ by decide⟩
  obtain ⟨place, st, lent, same, shows⟩ := views (.walk 0 ⟨0, 1⟩ .nextBack) s.store rfl
  have history : (Chronicle.start.run [.textFrom "a", .newVector .text, .pushText 0 0,
      .editItem 0 0 [.push "b", .clear, .push "é\u00a0"]]).find? (.walk 0 ⟨0, 1⟩ .nextBack) =
        some ⟨"a", [.push "b", .clear, .push "é\u00a0"]⟩ := rfl
  have text : (⟨"a", [.push "b", .clear, .push "é\u00a0"]⟩ : History).text = "é\u00a0" := by decide
  rw [history, same] at shows
  cases shows with
  | @some place h shows =>
    rw [text] at shows
    exact ⟨answers, s, run, place, st, lent, shows⟩

end Custody
