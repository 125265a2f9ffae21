/-
  Custody.Proofs.Listings — listings of texts can be told apart.

  Texts are listed one below the other, each behind its index, or side by side in brackets. They may hold the
  very characters that the listing is made of: quotes, commas, brackets, line ends, written forms of other
  characters. Since a quoted text is read back and stays on its line, the list can still be read from either
  listing (`readReport_reportBy`, `readListing_listingBy`), whichever characters stand for themselves, and so
  two lists never have the same one (`listings_unambiguous`).
-/
import Custody.Command.Report
import Custody.Proofs.Declarations
import Custody.Proofs.Quoting
import Custody.Proofs.Refinement

namespace Custody

/-! ## Listings, for any choice of plain characters -/

namespace Command

/-- The texts one below the other, where `plain` says which characters stand for themselves. -/
def reportBy (plain : Char → Bool) (texts : List String) : String :=
  String.join (texts.zipIdx.map fun t => line ("[" ++ toString t.2 ++ "] " ++ Text.quoteBy plain t.1))

theorem reportBy_isPlain : reportBy Text.isPlain = trimReport := rfl

end Command

namespace VectorOwner

/-- The texts side by side. -/
def listingBy (plain : Char → Bool) (texts : List String) : String :=
  "[" ++ ", ".intercalate (texts.map (Text.quoteBy plain)) ++ "]"

theorem listingBy_isPlain : listingBy Text.isPlain = listing .text := rfl

end VectorOwner

/-! ## One below the other -/

namespace Command

/-- The text that is quoted behind the index. -/
def readNumbered (line : String) : Option String :=
  match Text.readQuoted ((line.toList.dropWhile (· ≠ ' ')).drop 1) with
  | some (cs, []) => some (.ofList cs)
  | _ => none

/-- The texts of a report, line by line. -/
def readReport (report : String) : List String := (Header.linesOf report).filterMap readNumbered

theorem isDigit_of_mem_toString {n : Nat} {c : Char} (mem : c ∈ (toString n).toList) : c.isDigit :=
  Nat.isDigit_of_mem_toDigits (by decide) (by decide) (Nat.toList_repr (n := n) ▸ mem)

theorem readNumbered_quoteBy (plain : Char → Bool) (i : Nat) (t : String) :
    readNumbered ("[" ++ toString i ++ "] " ++ Text.quoteBy plain t) = some t := by
  have parts : ("[" ++ toString i ++ "] " ++ Text.quoteBy plain t).toList =
      ('[' :: ((toString i).toList ++ [']'])) ++ ' ' :: Text.quoteChars plain t.toList := by
    simp [Text.quoteBy]
  have word : ∀ c ∈ '[' :: ((toString i).toList ++ [']']), decide (c ≠ ' ') = true := by
    intro c mem
    rw [List.mem_cons, List.mem_append, List.mem_singleton] at mem
    rcases mem with rfl | mem | rfl
    · decide
    · refine decide_eq_true ?_
      rintro rfl
      exact absurd (isDigit_of_mem_toString mem) (by decide)
    · decide
  have read := Text.readQuoted_quoteChars plain t.toList []
  rw [List.append_nil] at read
  rw [readNumbered, parts, List.dropWhile_append_of_pos word, List.dropWhile_cons_of_neg (by decide), List.drop_one,
    List.tail_cons, read]
  exact congrArg some String.ofList_toList

/-- The report has one line for each text. -/
theorem linesOf_reportBy (plain : Char → Bool) (texts : List String) :
    Header.linesOf (reportBy plain texts) =
      texts.mapIdx fun i t => "[" ++ toString i ++ "] " ++ Text.quoteBy plain t := by
  have rendered : reportBy plain texts =
      Header.render (texts.mapIdx fun i t => "[" ++ toString i ++ "] " ++ Text.quoteBy plain t) := by
    simp [reportBy, Header.render, line, List.mapIdx_eq_zipIdx_map, Function.comp_def]
  rw [rendered, Header.linesOf_render]
  intro l mem
  obtain ⟨i, h, rfl⟩ := List.mem_mapIdx.mp mem
  have index : '\n' ∉ (toString i).toList := fun mem => absurd (isDigit_of_mem_toString mem) (by decide)
  have quoted : '\n' ∉ (Text.quoteBy plain texts[i]).toList := fun mem => (Text.quoteBy_unbroken plain _ _ mem).1 rfl
  simp only [String.toList_append, List.mem_append, not_or]
  exact ⟨⟨⟨by decide, index⟩, by decide⟩, quoted⟩

theorem readReport_reportBy (plain : Char → Bool) (texts : List String) :
    readReport (reportBy plain texts) = texts := by
  calc readReport (reportBy plain texts) = texts.zipIdx.filterMap fun t => some t.1 := by
        rw [readReport, linesOf_reportBy, List.mapIdx_eq_zipIdx_map, List.filterMap_map]
        simp only [Function.comp_def, readNumbered_quoteBy]
    _ = texts.zipIdx.map Prod.fst := congrFun List.filterMap_eq_map _
    _ = texts := List.zipIdx_map_fst ..

end Command

/-! ## Side by side -/

namespace VectorOwner

/-- The texts up to the closing bracket. -/
def readItems (cs : List Char) : Option (List String) :=
  match read : Text.readQuoted cs with
  | some (t, [']']) => some [.ofList t]
  | some (t, ',' :: ' ' :: rest) =>
    have : rest.length + 2 < cs.length := Text.readQuoted_shorter read
    (readItems rest).map (.ofList t :: ·)
  | _ => none
termination_by cs.length

/-- The texts between the brackets. -/
def readListing (listing : String) : Option (List String) :=
  match listing.toList with
  | '[' :: cs => if cs = [']'] then some [] else readItems cs
  | _ => none

theorem readItems_last {cs t : List Char} (read : Text.readQuoted cs = some (t, [']'])) :
    readItems cs = some [.ofList t] := by
  rw [readItems]
  split <;> simp_all

theorem readItems_more {cs t rest : List Char} (read : Text.readQuoted cs = some (t, ',' :: ' ' :: rest)) :
    readItems cs = (readItems rest).map (.ofList t :: ·) := by
  rw [readItems]
  split <;> simp_all

theorem readItems_quoteBy (plain : Char → Bool) (ts : List String) : ∀ t : String,
    readItems ((", ".intercalate ((t :: ts).map (Text.quoteBy plain))).toList ++ [']']) = some (t :: ts) := by
  induction ts with
  | nil =>
    intro t
    have read := Text.readQuoted_quoteChars plain t.toList [']']
    simpa [Text.quoteBy] using readItems_last read
  | cons u ts ih =>
    intro t
    have parts : (", ".intercalate ((t :: u :: ts).map (Text.quoteBy plain))).toList ++ [']'] =
        Text.quoteChars plain t.toList ++
          (',' :: ' ' :: ((", ".intercalate ((u :: ts).map (Text.quoteBy plain))).toList ++ [']'])) := by
      simp [Text.quoteBy]
    rw [parts, readItems_more (Text.readQuoted_quoteChars ..), ih, Option.map_some, String.ofList_toList]

theorem readListing_listingBy (plain : Char → Bool) (texts : List String) :
    readListing (listingBy plain texts) = some texts := by
  have parts : (listingBy plain texts).toList =
      '[' :: ((", ".intercalate (texts.map (Text.quoteBy plain))).toList ++ [']']) := by
    simp [listingBy]
  rw [readListing, parts]
  cases texts with
  | nil => rfl
  | cons t ts =>
    have items := readItems_quoteBy plain ts t
    refine (if_neg fun empty => ?_).trans items
    rw [empty, readItems] at items
    cases items

end VectorOwner

/-! ## Vectors of texts -/

/-- The vector is live and has these items; their number and the sizes of texts among them are words. -/
structure World.Contains {e : Element} (w : World) (v : VectorOwner e) (xs : List e.Item) : Prop where
  live : w.find v.handle = some (.ofList e xs)
  fit : AnyItems.Fit ⟨e, xs⟩

theorem World.Contains.debug {e : Element} {w : World} {v : VectorOwner e} {xs : List e.Item}
    (contains : w.Contains v xs) : wp v.debug (fun text w' => text = VectorOwner.listing e xs ∧ w' = w) w := by
  have arrive : Wire.words.items e xs = xs := Wire.words_items contains.fit.1 contains.fit.2
  exact VectorOwner.wp_debug contains.live ⟨congrArg _ arrive, rfl⟩

/-- After any operations, vectors in slots contain what they do as plain values. -/
theorem run_contains (a : Allocator) (settings : Settings) (ops : List Op)
    (fits : ({ Plain.start with settings } : Plain).FitsAlong ops) :
    ∃ answers s, (Session.startOn (.fresh a settings)).run ops = .ok (answers, s) ∧
      ∀ (v : Nat) (e : Element) (xs : List e.Item),
        ({ Plain.start with settings }.run .ideal ops).2.vectors.get? v = some ⟨e, xs⟩ →
          ∃ owner, s.vectors.get? v = some ⟨e, owner⟩ ∧ s.store.world.Contains owner xs := by
  obtain ⟨s, run, rep⟩ := start_represents a settings ops
  rw [Plain.run_fits ops fits] at run rep
  refine ⟨_, s, run, fun v e xs at_v => ?_⟩
  obtain ⟨h, entry, live⟩ := rep.value (k := .vectors) at_v
  exact ⟨_, entry, live, fits.end.vectors.get at_v⟩

/-! ## Both listings -/

/-- Texts that are written as `quoted` says can be told apart, one below the other and side by side. -/
structure Unambiguous (quoted : String → String) (report listing : List String → String) : Prop where
  /-- There is one line for each text, which begins with its index. -/
  lines : ∀ texts, Header.linesOf (report texts) = texts.mapIdx fun i t => "[" ++ toString i ++ "] " ++ quoted t
  /-- Whoever ends lines at a return sees the same ones. -/
  unbroken : ∀ t, ∀ c ∈ (quoted t).toList, c ≠ '\n' ∧ c ≠ '\r'
  items : ∀ texts, listing texts = "[" ++ ", ".intercalate (texts.map quoted) ++ "]"
  report_injective : Function.Injective report
  listing_injective : Function.Injective listing

theorem unambiguous_by (plain : Char → Bool) :
    Unambiguous (Text.quoteBy plain) (Command.reportBy plain) (VectorOwner.listingBy plain) where
  lines := Command.linesOf_reportBy plain
  unbroken := Text.quoteBy_unbroken plain
  items _ := rfl
  report_injective := Function.LeftInverse.injective (Command.readReport_reportBy plain)
  listing_injective texts texts' same := by
    have read := VectorOwner.readListing_listingBy plain texts
    rw [same, VectorOwner.readListing_listingBy] at read
    exact (Option.some.inj read).symm

/-- Whatever texts are listed, and whichever characters stand for themselves, a report has a line for each of
    them, and neither two reports nor two listings of different texts are the same. A vector of texts shows the
    listing of its texts, so that two vectors show the same only if they hold the same. -/
theorem listings_unambiguous :
    (∀ plain, Unambiguous (Text.quoteBy plain) (Command.reportBy plain) (VectorOwner.listingBy plain)) ∧
    Unambiguous Text.quote Command.trimReport (VectorOwner.listing .text) ∧
    (∀ (w : World) (v : VectorOwner .text) (texts : List String), w.Contains v texts →
      wp v.debug (fun text w' => text = VectorOwner.listing .text texts ∧ w' = w) w) ∧
    ∀ (w w' : World) (v v' : VectorOwner .text) (texts texts' : List String), w.Contains v texts →
      w'.Contains v' texts' → ∃ text text', wp v.debug (fun t _ => t = text) w ∧
        wp v'.debug (fun t _ => t = text') w' ∧ (text = text' ↔ texts = texts') := by
  have program : Unambiguous Text.quote Command.trimReport (VectorOwner.listing .text) := by
    rw [← Text.quoteBy_isPlain, ← Command.reportBy_isPlain, ← VectorOwner.listingBy_isPlain]
    exact unambiguous_by Text.isPlain
  refine ⟨unambiguous_by, program, fun w v texts contains => contains.debug,
    fun w w' v v' texts texts' contains contains' => ?_⟩
  refine ⟨VectorOwner.listing .text texts, VectorOwner.listing .text texts', ?_, ?_, program.listing_injective.eq_iff⟩
  · exact wp_mono contains.debug fun _ _ shown => shown.1
  · exact wp_mono contains'.debug fun _ _ shown => shown.1

/-- For example, a vector of one text that has the end of a text and the beginning of another in it, and a vector
    of two texts. -/
theorem listings_unambiguous_look_alikes :
    ∃ answers s v v', (Session.startOn (.fresh .growing .initial)).run
        [.collectVector .text ["a\", \"b"], .collectVector .text ["a", "b"]] = .ok (answers, s) ∧
      s.vectors.get? 0 = some ⟨.text, v⟩ ∧ s.vectors.get? 1 = some ⟨.text, v'⟩ ∧
      s.store.world.Contains v ["a\", \"b"] ∧ s.store.world.Contains v' ["a", "b"] ∧
      ∃ text text', wp v.debug (fun t _ => t = text) s.store.world ∧
        wp v'.debug (fun t _ => t = text') s.store.world ∧ text ≠ text' := by
  obtain ⟨-, -, -, told⟩ := listings_unambiguous
  obtain ⟨answers, s, run, holds⟩ := run_contains .growing .initial
    [.collectVector .text ["a\", \"b"], .collectVector .text ["a", "b"]]
    ⟨by decide, show ∀ t ∈ ["a\", \"b"], Wire.Fits t by decide, by decide,
      show ∀ t ∈ ["a", "b"], Wire.Fits t by decide, show Plain.Fits _ by decide⟩
  obtain ⟨v, at_0, one⟩ := holds 0 .text ["a\", \"b"] rfl
  obtain ⟨v', at_1, two⟩ := holds 1 .text ["a", "b"] rfl
  obtain ⟨text, text', shown, shown', iff⟩ := told _ _ v v' _ _ one two
  exact ⟨answers, s, v, v', run, at_0, at_1, one, two, text, text', shown, shown',
    fun same => absurd (iff.mp same) (by decide)⟩

end Custody
