/-
  Custody.Proofs.Wire — what crosses the boundary, and what arrives.

  Texts cross as views, whose lengths are words, and items are counted in words. `Wire.words` says
  what arrives of a text or a count of any size; a text or a count that fits a word arrives as it is
  (`words_text`, `words_count`), so that for those the wire is the ideal one.
-/
import Mathlib.Algebra.Ring.Nat
import Custody.Session.Op

namespace Custody

/-! ## A text is read back from its bytes -/

namespace Text

/-- A character that was encoded behind some bytes is read there, and reading goes on behind it. -/
theorem decodeFrom_char (front : ByteArray) (c : Char) (rest : ByteArray) :
    decodeFrom (front ++ ([c].utf8Encode ++ rest)) front.size =
      let after := decodeFrom (front ++ [c].utf8Encode ++ rest) (front ++ [c].utf8Encode).size
      (c :: after.1, after.2) := by
  have head : (front ++ ([c].utf8Encode ++ rest)).utf8DecodeChar? front.size = some c := by
    rw [ByteArray.utf8DecodeChar?_eq_utf8DecodeChar?_extract,
      ByteArray.extract_append_eq_right rfl ByteArray.size_append,
      List.utf8DecodeChar?_utf8Encode_singleton_append]
  have behind : (front ++ [c].utf8Encode).size = front.size + c.utf8Size := by
    simp [List.utf8Encode_singleton]
  rw [decodeFrom, head, behind, ByteArray.append_assoc]
  simp

/-- Characters that were encoded behind some bytes are decoded from there to the end. -/
theorem decodeFrom_append (cs : List Char) : ∀ bytes : ByteArray,
    decodeFrom (bytes ++ cs.utf8Encode) bytes.size = (cs, bytes.size + cs.utf8Encode.size) := by
  induction cs with
  | nil =>
    intro bytes
    have stop : bytes.utf8DecodeChar? bytes.size = none := by
      cases h : bytes.utf8DecodeChar? bytes.size with
      | none => rfl
      | some c =>
        have := ByteArray.lt_size_of_isSome_utf8DecodeChar? (b := bytes) (i := bytes.size) (by rw [h]; rfl)
        omega
    unfold decodeFrom
    simp [stop]
  | cons c cs ih =>
    intro bytes
    have all : (c :: cs).utf8Encode = [c].utf8Encode ++ cs.utf8Encode := List.utf8Encode_append (l := [c])
    rw [all, decodeFrom_char, ih]
    simp [Nat.add_assoc]

theorem decoded_bytesOf (t : String) : decoded (bytesOf t) = t := by
  have h := decodeFrom_append t.toList ByteArray.empty
  rw [ByteArray.empty_append, String.utf8Encode_toList] at h
  have bytes : (⟨(bytesOf t).toArray⟩ : ByteArray) = t.toByteArray := by simp [bytesOf]
  rw [decoded, bytes, show 0 = ByteArray.empty.size from rfl, h]
  exact String.ofList_toList

theorem length_bytesOf (t : String) : (bytesOf t).length = t.utf8ByteSize := by
  simp [bytesOf, ← String.size_toByteArray]

theorem trimChars_split (cs : List Char) : ∃ p q, cs = p ++ trimChars cs ++ q := by
  obtain ⟨p, hp⟩ := cs.dropWhile_suffix isBlank
  obtain ⟨q, hq⟩ := (cs.dropWhile isBlank).reverse.dropWhile_suffix isBlank
  refine ⟨p, q.reverse, ?_⟩
  have : trimChars cs ++ q.reverse = cs.dropWhile isBlank := by
    rw [trimChars, ← List.reverse_append, hq, List.reverse_reverse]
  rw [List.append_assoc, this, hp]

/-- Trimming makes no text longer. -/
theorem utf8ByteSize_trim_le (t : String) : (trim t).utf8ByteSize ≤ t.utf8ByteSize := by
  obtain ⟨p, q, h⟩ := trimChars_split t.toList
  have size (s : String) : s.utf8ByteSize = s.toList.utf8Encode.size := by
    rw [String.utf8Encode_toList, String.size_toByteArray]
  have total := congrArg (fun cs => cs.utf8Encode.size) h
  simp only [List.utf8Encode_append, ByteArray.size_append] at total
  rw [size, size, toList_trim]
  omega

end Text

/-! ## The wire -/

structure Wire where
  /-- What arrives of a text. -/
  text : String → String
  /-- How many of so many items are counted. -/
  count : Nat → Nat

namespace Wire

/-- Everything arrives as it is. -/
def ideal : Wire := ⟨id, id⟩

/-- Lengths and counts are words. -/
def words : Wire := ⟨fun t => (TextView.ofText t).trusted, fun n => (UInt64.ofNat n).toNat⟩

/-- Whether the length of a text is a word. -/
def Fits (t : String) : Prop := t.utf8ByteSize < 2 ^ 64

theorem words_count {n : Nat} (h : n < 2 ^ 64) : words.count n = n := by
  simp only [words, UInt64.toNat_ofNat']
  exact Nat.mod_eq_of_lt h

theorem words_text {t : String} (h : Fits t) : words.text t = t := by
  have len : (UInt64.ofNat t.utf8ByteSize).toNat = t.utf8ByteSize := words_count h
  show Text.decoded (((TextView.ofText t).bytes?).getD []) = t
  by_cases e : UInt64.ofNat t.utf8ByteSize = 0
  · have zero : t.utf8ByteSize = 0 := by rw [← len, e]; rfl
    obtain rfl : t = "" := String.utf8ByteSize_eq_zero_iff.mp zero
    exact Text.decoded_bytesOf ""
  · have shown : (Text.bytesOf t).take (UInt64.ofNat t.utf8ByteSize).toNat = Text.bytesOf t := by
      rw [len, List.take_of_length_le (Nat.le_of_eq (Text.length_bytesOf t))]
    have : (TextView.ofText t).bytes? = some (Text.bytesOf t) := by
      simp only [TextView.ofText, TextView.bytes?, View.elements?, View.isEmpty, beq_iff_eq, e, if_false,
        Option.map_some, id, shown]
    rw [this]
    exact Text.decoded_bytesOf t

theorem fits_trim {t : String} (h : Fits t) : Fits (Text.trim t) :=
  Nat.lt_of_le_of_lt (Text.utf8ByteSize_trim_le t) h

variable (wire : Wire)

/-- What arrives of an item. -/
def item : (e : Element) → e.Item → e.Item
  | .text, t => wire.text t
  | .scalar _, x => x

/-- What a walk over the items shows of them. -/
def items (e : Element) (xs : List e.Item) : List e.Item := (xs.take (wire.count xs.length)).map (wire.item e)

/-- What a lookup of the store shows of what it found. -/
def found : (e : Element) → Option e.Item → e.Found
  | .text, x => x.map wire.text
  | .scalar p, x => .ofOption p.zero x

/-- What a view says of the text behind it. -/
def reading (t : String) : Reading where
  len := UInt64.ofNat t.utf8ByteSize
  isEmpty := UInt64.ofNat t.utf8ByteSize == 0
  text := wire.text t
  trimmed := wire.text (Text.trim t)
  viewLen := UInt64.ofNat t.utf8ByteSize
  display := wire.text t
  debug := Text.quote (wire.text t)
  hash := Hash.sip 0 0 (Hash.wordBytes (textHash t))

/-- The text after an edit. -/
def edit (t : String) : Edit → String
  | .push piece => t ++ wire.text piece
  | .clear => ""

end Wire

end Custody
