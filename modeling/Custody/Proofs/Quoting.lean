/-
  Custody.Proofs.Quoting — a quoted text is read back, whichever characters stand for themselves.

  A reader goes through a quoted text once. A backslash says that what follows is the written form of a
  character, and the first quote without one ends the text. Which characters were written as they are does not
  matter to it, so nothing is assumed of them here: what it reads is the text that was quoted, and it stops
  right behind it (`readQuoted_quoteChars`). No quoted text goes over the end of a line (`quoteBy_unbroken`).
-/
import Mathlib.Tactic.SplitIfs
import Custody.Text.Quoted

namespace Custody.Text

/-- A text between double quotes, where `plain` says which characters stand for themselves. -/
def quoteBy (plain : Char → Bool) (text : String) : String := String.ofList (quoteChars plain text.toList)

theorem quoteBy_isPlain : quoteBy isPlain = quote := rfl

/-! ## Hexadecimal digits -/

def hexValue (c : Char) : Nat := if c.isDigit then c.toNat - '0'.toNat else c.toNat - 'a'.toNat + 10

/-- The number after one more digit. -/
def addDigit (n : Nat) (c : Char) : Nat := 16 * n + hexValue c

theorem hexValue_digitChar : ∀ d < 16, hexValue d.digitChar = d := by decide

/-- A number's digits are those of its sixteenth part and one more. -/
theorem toDigits_rec {P : Nat → List Char → Prop} (one : ∀ d < 16, P d [d.digitChar])
    (more : ∀ n ds, ∀ d < 16, P n ds → P (16 * n + d) (ds ++ [d.digitChar])) (n : Nat) : P n (Nat.toDigits 16 n) := by
  induction n using Nat.strongRecOn with
  | ind n ih =>
    by_cases small : n < 16
    · rw [Nat.toDigits_of_lt_base small]
      exact one n small
    · have all := more (n / 16) _ (n % 16) (Nat.mod_lt n (by decide)) (ih (n / 16) (by omega))
      rwa [Nat.div_add_mod, ← Nat.toDigits_of_base_le (by decide) (by omega)] at all

theorem foldl_toDigits (n : Nat) : (Nat.toDigits 16 n).foldl addDigit 0 = n := by
  refine toDigits_rec (P := fun n ds => ds.foldl addDigit 0 = n) (fun d small => ?_) (fun n ds d small ih => ?_) n
  · exact (Nat.zero_add _).trans (hexValue_digitChar d small)
  · rw [List.foldl_append, ih]
    exact congrArg (16 * n + ·) (hexValue_digitChar d small)

/-- What holds of every digit holds of the digits of a number. -/
theorem forall_mem_toDigits {P : Char → Prop} (digit : ∀ d < 16, P d.digitChar) (n : Nat) :
    ∀ c ∈ Nat.toDigits 16 n, P c := by
  refine toDigits_rec (P := fun _ ds => ∀ c ∈ ds, P c) (fun d small => ?_) (fun n ds d small ih => ?_) n
  · exact List.forall_mem_singleton.mpr (digit d small)
  · exact List.forall_mem_append.mpr ⟨ih, List.forall_mem_singleton.mpr (digit d small)⟩

/-! ## Reading -/

/-- The character that a letter behind a backslash means; the quote and the backslash mean themselves. -/
def unescape (c : Char) : Char :=
  if c = 'n' then '\n' else if c = 'r' then '\r' else if c = 't' then '\t' else if c = '0' then '\x00' else c

/-- One more character in front of what is read. -/
def prepend (c : Char) (read : Option (List Char × List Char)) : Option (List Char × List Char) :=
  read.map fun (cs, rest) => (c :: cs, rest)

/-- Reads up to the closing quote: the characters, and what is behind the quote. Between the braces of a code
    point, `code` is the number that its digits make so far. -/
def readInside : (code : Option Nat) → List Char → Option (List Char × List Char)
  | _, [] => none
  | some n, c :: rest =>
    if c = '\x7d' then prepend (Char.ofNat n) (readInside none rest) else readInside (some (addDigit n c)) rest
  | none, '"' :: rest => some ([], rest)
  | none, '\\' :: 'u' :: '\x7b' :: rest => readInside (some 0) rest
  | none, '\\' :: c :: rest => prepend (unescape c) (readInside none rest)
  | none, c :: rest => prepend c (readInside none rest)

/-- Reads a quoted text: the characters, and what is behind it. -/
def readQuoted : List Char → Option (List Char × List Char)
  | '"' :: cs => readInside none cs
  | _ => none

theorem read_of_prepend {c : Char} {read : Option (List Char × List Char)} {t rest : List Char}
    (h : prepend c read = some (t, rest)) : ∃ t', read = some (t', rest) := by
  obtain ⟨⟨t', rest'⟩, read, same⟩ := Option.map_eq_some_iff.mp h
  cases same
  exact ⟨t', read⟩

/-- Reading leaves less than was there. -/
theorem readInside_shorter {code : Option Nat} {cs : List Char} : ∀ {t rest : List Char},
    readInside code cs = some (t, rest) → rest.length < cs.length := by
  fun_induction readInside code cs with
  | case1 => intro t rest read; cases read
  | case2 n cs ih | case6 c cs other ih | case7 c cs notQuote notCode notEscape ih =>
    intro t rest read
    obtain ⟨t', read⟩ := read_of_prepend read
    have shorter := ih read
    simp only [List.length_cons]
    omega
  | case3 n c cs other ih =>
    intro t rest read
    exact Nat.lt_succ_of_lt (ih read)
  | case4 cs =>
    intro t rest read
    cases read
    exact Nat.lt_succ_self _
  | case5 cs ih =>
    intro t rest read
    have shorter := ih read
    simp only [List.length_cons]
    omega

theorem readQuoted_shorter {cs t rest : List Char} (read : readQuoted cs = some (t, rest)) :
    rest.length < cs.length := by
  unfold readQuoted at read
  split at read
  · exact Nat.lt_succ_of_lt (readInside_shorter read)
  · cases read

theorem readInside_digits {ds : List Char} (inside : ∀ d ∈ ds, d ≠ '\x7d') (rest : List Char) (n : Nat) :
    readInside (some n) (ds ++ '\x7d' :: rest) = prepend (Char.ofNat (ds.foldl addDigit n)) (readInside none rest) := by
  induction ds generalizing n with
  | nil => simp [readInside]
  | cons d ds ih =>
    obtain ⟨first, inside⟩ := List.forall_mem_cons.mp inside
    rw [List.cons_append, readInside, if_neg first, ih inside, List.foldl_cons]

/-- The forms in which a character can stand in a quoted text. -/
inductive Written : Char → List Char → Prop
  | letter (l : Char) : l ∈ ['"', '\\', 'n', 'r', 't', '0'] → Written (unescape l) ['\\', l]
  | itself (c : Char) : c ∉ ['"', '\\', '\n', '\r'] → Written c [c]
  | byCode (c : Char) : Written c (codePoint c)

theorem written_escape (plain : Char → Bool) (c : Char) : Written c (escape plain c) := by
  unfold escape
  split_ifs with quote backslash newline ret tab nul itself
  · subst quote; exact .letter '"' (by decide)
  · subst backslash; exact .letter '\\' (by decide)
  · subst newline; exact .letter 'n' (by decide)
  · subst ret; exact .letter 'r' (by decide)
  · subst tab; exact .letter 't' (by decide)
  · subst nul; exact .letter '0' (by decide)
  · exact .itself c (by simp [quote, backslash, newline, ret])
  · exact .byCode c

/-- Every form of a character is read as that character. -/
theorem Written.read {c : Char} {form : List Char} (written : Written c form) (rest : List Char) :
    readInside none (form ++ rest) = prepend c (readInside none rest) := by
  cases written with
  | letter l known =>
    have other : l ≠ 'u' := by
      rintro rfl
      exact absurd known (by decide)
    simp [readInside, other]
  | itself c other =>
    simp only [List.mem_cons, not_or] at other
    simp [readInside, other]
  | byCode c =>
    have inside : ∀ d ∈ Nat.toDigits 16 c.toNat, d ≠ '\x7d' := forall_mem_toDigits (by decide) _
    have read := readInside_digits inside rest 0
    rw [foldl_toDigits, Char.ofNat_toNat] at read
    simpa [codePoint, readInside] using read

/-- No form of a character has a line end in it, of whatever kind. -/
theorem Written.unbroken {c : Char} {form : List Char} (written : Written c form) :
    ∀ d ∈ form, d ≠ '\n' ∧ d ≠ '\r' := by
  cases written with
  | letter l known =>
    have other : l ≠ '\n' ∧ l ≠ '\r' := by
      constructor <;> rintro rfl <;> exact absurd known (by decide)
    simp [other]
  | itself c other =>
    simp only [List.mem_cons, not_or] at other
    simp [other]
  | byCode c =>
    have digits : ∀ d ∈ Nat.toDigits 16 c.toNat, d ≠ '\n' ∧ d ≠ '\r' := forall_mem_toDigits (by decide) _
    simpa [codePoint, or_imp, forall_and] using digits

/-- What was quoted is read, and nothing more. -/
theorem readQuoted_quoteChars (plain : Char → Bool) (cs rest : List Char) :
    readQuoted (quoteChars plain cs ++ rest) = some (cs, rest) := by
  have inside : readInside none (cs.flatMap (escape plain) ++ '"' :: rest) = some (cs, rest) := by
    induction cs with
    | nil => simp [readInside]
    | cons c cs ih =>
      rw [List.flatMap_cons, List.append_assoc, (written_escape plain c).read, ih]
      rfl
  simpa [quoteChars, readQuoted] using inside

/-- A quoted text stays on its line. -/
theorem quoteBy_unbroken (plain : Char → Bool) (text : String) :
    ∀ d ∈ (quoteBy plain text).toList, d ≠ '\n' ∧ d ≠ '\r' := by
  intro d mem
  rw [quoteBy, String.toList_ofList, quoteChars, List.mem_append, List.mem_cons, List.mem_flatMap] at mem
  rcases mem with (rfl | ⟨c, -, mem⟩) | mem
  · decide
  · exact (written_escape plain c).unbroken d mem
  · obtain rfl := List.mem_singleton.mp mem
    decide

end Custody.Text
