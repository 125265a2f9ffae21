/-
  Custody.Proofs.Trimming — a trimmed text is the text without the blanks at its two ends.

  What is blank is written out, character by character (`Text.blanks`), and the table that trimming goes by has
  just these (`isBlank_iff`). `Text.Stripped` says what is left of a text without following how it is trimmed.
  There is one such rest of every text, which is the trimmed text (`stripped_trim`, `Stripped.eq_trim`).
-/
import Mathlib.Data.List.Basic
import Mathlib.Data.List.TakeWhile
import Custody.Text.Blank

namespace Custody

namespace Text

/-! ## White space -/

/-- The characters with the Unicode property White_Space. -/
def blanks : List Char :=
  ['\t', '\n', '\x0b', '\x0c', '\r', ' ', '\u0085', '\u00a0', '\u1680',
    '\u2000', '\u2001', '\u2002', '\u2003', '\u2004', '\u2005', '\u2006', '\u2007', '\u2008', '\u2009', '\u200a',
    '\u2028', '\u2029', '\u202f', '\u205f', '\u3000']

theorem isBlank_iff {c : Char} : isBlank c = true ↔ c ∈ blanks := by
  have codes : blanks.map Char.toNat = [0x9, 0xa, 0xb, 0xc, 0xd, 0x20, 0x85, 0xa0, 0x1680, 0x2000, 0x2001, 0x2002,
    0x2003, 0x2004, 0x2005, 0x2006, 0x2007, 0x2008, 0x2009, 0x200a, 0x2028, 0x2029, 0x202f, 0x205f, 0x3000] := rfl
  rw [← List.mem_map_of_injective (f := Char.toNat) fun _ _ => Char.toNat_inj.mp, codes, isBlank, Ranges.contains_iff]
  simp only [whiteSpace, List.exists_mem_cons_iff]
  simp only [List.mem_cons, List.not_mem_nil, false_and, exists_false, or_false]
  omega

/-! ## What is left of a text -/

/-- `m` is what is left of `t` without the blanks at its two ends. -/
structure Stripped (t m : String) : Prop where
  parts : ∃ p q, t.toList = p ++ m.toList ++ q ∧ (∀ c ∈ p, c ∈ blanks) ∧ ∀ c ∈ q, c ∈ blanks
  first : ∀ c ∈ m.toList.head?, c ∉ blanks
  last : ∀ c ∈ m.toList.getLast?, c ∉ blanks

theorem of_mem_takeWhile {cs : List Char} {c : Char} (mem : c ∈ cs.takeWhile isBlank) : c ∈ blanks :=
  isBlank_iff.mp (List.all_eq_true.mp List.all_takeWhile c mem)

theorem not_of_head?_dropWhile (cs : List Char) {c : Char} (first : (cs.dropWhile isBlank).head? = some c) :
    c ∉ blanks := by
  have stopped := List.head?_dropWhile_not isBlank cs
  rw [first] at stopped
  rw [← isBlank_iff]
  simp [stopped]

theorem stripped_trim (t : String) : Stripped t (trim t) := by
  obtain ⟨rest, hrest⟩ : ∃ rest, t.toList.dropWhile isBlank = rest := ⟨_, rfl⟩
  have trimmed : (trim t).toList = (rest.reverse.dropWhile isBlank).reverse := by rw [toList_trim, trimChars, hrest]
  have front : t.toList.takeWhile isBlank ++ rest = t.toList := hrest ▸ List.takeWhile_append_dropWhile
  -- the end of the rest is the beginning of the rest reversed
  have back : (trim t).toList ++ (rest.reverse.takeWhile isBlank).reverse = rest := by
    rw [trimmed, ← List.reverse_append, List.takeWhile_append_dropWhile, List.reverse_reverse]
  refine ⟨⟨t.toList.takeWhile isBlank, (rest.reverse.takeWhile isBlank).reverse, ?_, fun c => of_mem_takeWhile,
    fun c mem => of_mem_takeWhile (List.mem_reverse.mp mem)⟩, fun c first => ?_, fun c last => ?_⟩
  · rw [List.append_assoc, back, front]
  · apply not_of_head?_dropWhile t.toList
    rw [hrest, ← back, List.head?_append, Option.mem_def.mp first]
    rfl
  · apply not_of_head?_dropWhile rest.reverse
    rwa [Option.mem_def, trimmed, List.getLast?_reverse] at last

theorem dropWhile_of_head? {cs : List Char} (first : ∀ c ∈ cs.head?, c ∉ blanks) : cs.dropWhile isBlank = cs := by
  cases cs with
  | nil => rfl
  | cons c cs => exact List.dropWhile_cons_of_neg (mt isBlank_iff.mp (first c rfl))

/-- A text has only one such rest. -/
theorem Stripped.eq_trim {t m : String} (s : Stripped t m) : m = trim t := by
  obtain ⟨p, q, parts, hp, hq⟩ := s.parts
  have hp (c : Char) (mem : c ∈ p) : isBlank c = true := isBlank_iff.mpr (hp c mem)
  have hq (c : Char) (mem : c ∈ q) : isBlank c = true := isBlank_iff.mpr (hq c mem)
  apply String.toList_inj.mp
  rw [toList_trim, trimChars, parts, List.append_assoc, List.dropWhile_append_of_pos hp]
  by_cases none : m.toList = []
  · have gone : q.dropWhile isBlank = [] := List.dropWhile_eq_nil_iff.mpr hq
    simp [none, gone]
  · have kept : (m.toList ++ q).dropWhile isBlank = m.toList ++ q :=
      dropWhile_of_head? (by rw [List.head?_append_of_ne_nil _ none]; exact s.first)
    rw [kept, List.reverse_append, List.dropWhile_append_of_pos (fun c mem => hq c (List.mem_reverse.mp mem)),
      dropWhile_of_head? (by rw [List.head?_reverse]; exact s.last), List.reverse_reverse]

/-- Trimming again takes nothing off. -/
theorem trim_trim (t : String) : trim (trim t) = trim t := by
  have stripped := stripped_trim t
  have again : Stripped (trim t) (trim t) := ⟨⟨[], [], by simp, by simp, by simp⟩, stripped.first, stripped.last⟩
  exact again.eq_trim.symm

end Text

end Custody
