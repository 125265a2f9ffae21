/-
  Custody.Proofs.WellFormed — a view of unknown origin is a text exactly when its bytes are UTF-8.

  Which runs of bytes are UTF-8 is said without a decoder: `Text.Sequence` has one constructor for each
  row of the table of well-formed byte sequences, and `Text.WellFormed` puts sequences behind each other.
  These runs are the encodings of characters (`wellFormed_iff`), which is what decoding finds: it stops
  behind the longest run at the front that is well formed (`validUpTo_greatest`).
-/
import Mathlib.Order.Bounds.Basic
import Custody.Proofs.Wire

namespace Custody

namespace Text

/-! ## The table -/

/-- A byte that carries a character on. -/
def Tail (b : UInt8) : Prop := 0x80 ≤ b ∧ b ≤ 0xBF

/-- The bytes of one character. A second byte has a range of its own where others would be another
    spelling of a shorter sequence (`e0`, `f0`), a surrogate (`ed`) or above the last character (`f4`). -/
inductive Sequence : List UInt8 → Prop
  | one {a : UInt8} : a ≤ 0x7F → Sequence [a]
  | two {a b : UInt8} : 0xC2 ≤ a → a ≤ 0xDF → Tail b → Sequence [a, b]
  | e0 {b c : UInt8} : 0xA0 ≤ b → b ≤ 0xBF → Tail c → Sequence [0xE0, b, c]
  | e1ec {a b c : UInt8} : 0xE1 ≤ a → a ≤ 0xEC → Tail b → Tail c → Sequence [a, b, c]
  | ed {b c : UInt8} : 0x80 ≤ b → b ≤ 0x9F → Tail c → Sequence [0xED, b, c]
  | eeef {a b c : UInt8} : 0xEE ≤ a → a ≤ 0xEF → Tail b → Tail c → Sequence [a, b, c]
  | f0 {b c d : UInt8} : 0x90 ≤ b → b ≤ 0xBF → Tail c → Tail d → Sequence [0xF0, b, c, d]
  | f1f3 {a b c d : UInt8} : 0xF1 ≤ a → a ≤ 0xF3 → Tail b → Tail c → Tail d → Sequence [a, b, c, d]
  | f4 {b c d : UInt8} : 0x80 ≤ b → b ≤ 0x8F → Tail c → Tail d → Sequence [0xF4, b, c, d]

/-- Sequences of bytes, one behind the other. -/
inductive WellFormed : List UInt8 → Prop
  | nil : WellFormed []
  | cons {s rest : List UInt8} : Sequence s → WellFormed rest → WellFormed (s ++ rest)

/-! ## The table lists the encodings of characters -/

theorem exists_char {n : Nat} (valid : n.isValidChar) : ∃ x : Char, x.val.toNat = n :=
  ⟨Char.ofNatAux n valid, rfl⟩

theorem ofNat_eq {n : Nat} {a : UInt8} (h : n = a.toNat) : UInt8.ofNat n = a := by
  rw [h, UInt8.ofNat_toNat]

theorem encode_one {a : UInt8} (ha : a.toNat ≤ 0x7F) : ∃ x, String.utf8EncodeChar x = [a] := by
  obtain ⟨x, hx⟩ := exists_char (n := a.toNat) (Or.inl (by omega))
  exists x
  unfold String.utf8EncodeChar
  simp only [hx]
  rw [if_pos ha, UInt8.ofNat_toNat]

theorem encode_two {a b : UInt8} (ha : 0xC2 ≤ a.toNat) (ha' : a.toNat ≤ 0xDF) (hb : 0x80 ≤ b.toNat)
    (hb' : b.toNat ≤ 0xBF) : ∃ x, String.utf8EncodeChar x = [a, b] := by
  obtain ⟨n, hn⟩ : ∃ n, n = (a.toNat - 0xC0) * 64 + (b.toNat - 0x80) := ⟨_, rfl⟩
  obtain ⟨x, hx⟩ := exists_char (n := n) (Or.inl (by omega))
  have first : n / 64 % 0x20 + 0xC0 = a.toNat := by omega
  have second : n % 0x40 + 0x80 = b.toNat := by omega
  exists x
  unfold String.utf8EncodeChar
  simp only [hx]
  rw [if_neg (by omega), if_pos (by omega), ofNat_eq first, ofNat_eq second]

/-- Three bytes are a character if their number takes three and is no surrogate. -/
theorem encode_three {a b c : UInt8} {n : Nat} (ha : 0xE0 ≤ a.toNat) (ha' : a.toNat ≤ 0xEF)
    (hb : 0x80 ≤ b.toNat) (hb' : b.toNat ≤ 0xBF) (hc : 0x80 ≤ c.toNat) (hc' : c.toNat ≤ 0xBF)
    (hn : n = (a.toNat - 0xE0) * 4096 + (b.toNat - 0x80) * 64 + (c.toNat - 0x80))
    (long : 0x800 ≤ n) (proper : n < 0xD800 ∨ 0xDFFF < n) :
    ∃ x, String.utf8EncodeChar x = [a, b, c] := by
  obtain ⟨x, hx⟩ := exists_char (n := n) (by unfold Nat.isValidChar; omega)
  have first : n / 4096 % 0x10 + 0xE0 = a.toNat := by omega
  have second : n / 64 % 0x40 + 0x80 = b.toNat := by omega
  have third : n % 0x40 + 0x80 = c.toNat := by omega
  exists x
  unfold String.utf8EncodeChar
  simp only [hx]
  rw [if_neg (by omega), if_neg (by omega), if_pos (by omega), ofNat_eq first, ofNat_eq second,
    ofNat_eq third]

/-- Four bytes are a character if their number takes four and is not above the last one. -/
theorem encode_four {a b c d : UInt8} {n : Nat} (ha : 0xF0 ≤ a.toNat) (ha' : a.toNat ≤ 0xF4)
    (hb : 0x80 ≤ b.toNat) (hb' : b.toNat ≤ 0xBF) (hc : 0x80 ≤ c.toNat) (hc' : c.toNat ≤ 0xBF)
    (hd : 0x80 ≤ d.toNat) (hd' : d.toNat ≤ 0xBF)
    (hn : n = (a.toNat - 0xF0) * 262144 + (b.toNat - 0x80) * 4096 + (c.toNat - 0x80) * 64
      + (d.toNat - 0x80))
    (long : 0xFFFF < n) (last : n < 0x110000) : ∃ x, String.utf8EncodeChar x = [a, b, c, d] := by
  obtain ⟨x, hx⟩ := exists_char (n := n) (Or.inr (by omega))
  have first : n / 262144 % 0x08 + 0xF0 = a.toNat := by omega
  have second : n / 4096 % 0x40 + 0x80 = b.toNat := by omega
  have third : n / 64 % 0x40 + 0x80 = c.toNat := by omega
  have fourth : n % 0x40 + 0x80 = d.toNat := by omega
  exists x
  unfold String.utf8EncodeChar
  simp only [hx]
  rw [if_neg (by omega), if_neg (by omega), if_neg (by omega), ofNat_eq first, ofNat_eq second,
    ofNat_eq third, ofNat_eq fourth]

/-- Every row of the table encodes a character. -/
theorem Sequence.encodes {s : List UInt8} (h : Sequence s) : ∃ x, String.utf8EncodeChar x = s := by
  cases h with
  | one ha => exact encode_one ha
  | two ha ha' hb => exact encode_two ha ha' hb.1 hb.2
  | e0 hb hb' hc =>
    simp only [Tail, UInt8.le_iff_toNat_le] at hb hb' hc
    apply encode_three (by decide) (by decide) ?_ hb' hc.1 hc.2 rfl <;> simp at * <;> omega
  | e1ec ha ha' hb hc =>
    simp only [Tail, UInt8.le_iff_toNat_le] at ha ha' hb hc
    apply encode_three ?_ ?_ hb.1 hb.2 hc.1 hc.2 rfl <;> simp at * <;> omega
  | ed hb hb' hc =>
    simp only [Tail, UInt8.le_iff_toNat_le] at hb hb' hc
    apply encode_three (by decide) (by decide) hb ?_ hc.1 hc.2 rfl <;> simp at * <;> omega
  | eeef ha ha' hb hc =>
    simp only [Tail, UInt8.le_iff_toNat_le] at ha ha' hb hc
    apply encode_three ?_ ha' hb.1 hb.2 hc.1 hc.2 rfl <;> simp at * <;> omega
  | f0 hb hb' hc hd =>
    simp only [Tail, UInt8.le_iff_toNat_le] at hb hb' hc hd
    apply encode_four (by decide) (by decide) ?_ hb' hc.1 hc.2 hd.1 hd.2 rfl <;> simp at * <;> omega
  | f1f3 ha ha' hb hc hd =>
    simp only [Tail, UInt8.le_iff_toNat_le] at ha ha' hb hc hd
    apply encode_four ?_ ?_ hb.1 hb.2 hc.1 hc.2 hd.1 hd.2 rfl <;> simp at * <;> omega
  | f4 hb hb' hc hd =>
    simp only [Tail, UInt8.le_iff_toNat_le] at hb hb' hc hd
    apply encode_four (by decide) (by decide) hb ?_ hc.1 hc.2 hd.1 hd.2 rfl <;> simp at * <;> omega

/-- The rows of three bytes together. -/
theorem Sequence.three {a b c : UInt8} (ha : 0xE0 ≤ a.toNat) (ha' : a.toNat ≤ 0xEF) (hb : Tail b)
    (hc : Tail c) (long : a.toNat = 0xE0 → 0xA0 ≤ b.toNat) (proper : a.toNat = 0xED → b.toNat ≤ 0x9F) :
    Sequence [a, b, c] := by
  by_cases e0 : a.toNat = 0xE0
  · obtain rfl : a = 0xE0 := UInt8.toNat_inj.mp e0
    exact .e0 (long rfl) hb.2 hc
  by_cases ed : a.toNat = 0xED
  · obtain rfl : a = 0xED := UInt8.toNat_inj.mp ed
    exact .ed hb.1 (proper rfl) hc
  by_cases below : a.toNat ≤ 0xEC
  · have above : 0xE1 ≤ a.toNat := by omega
    exact .e1ec above below hb hc
  · have above : 0xEE ≤ a.toNat := by omega
    exact .eeef above ha' hb hc

/-- The rows of four bytes together. -/
theorem Sequence.four {a b c d : UInt8} (ha : 0xF0 ≤ a.toNat) (ha' : a.toNat ≤ 0xF4) (hb : Tail b)
    (hc : Tail c) (hd : Tail d) (long : a.toNat = 0xF0 → 0x90 ≤ b.toNat)
    (last : a.toNat = 0xF4 → b.toNat ≤ 0x8F) : Sequence [a, b, c, d] := by
  by_cases f0 : a.toNat = 0xF0
  · obtain rfl : a = 0xF0 := UInt8.toNat_inj.mp f0
    exact .f0 (long rfl) hb.2 hc hd
  by_cases f4 : a.toNat = 0xF4
  · obtain rfl : a = 0xF4 := UInt8.toNat_inj.mp f4
    exact .f4 hb.1 (last rfl) hc hd
  have above : 0xF1 ≤ a.toNat := by omega
  have below : a.toNat ≤ 0xF3 := by omega
  exact .f1f3 above below hb hc hd

theorem toNat_ofNat {n : Nat} (h : n < 256) : (UInt8.ofNat n).toNat = n := by
  rw [UInt8.toNat_ofNat']
  exact Nat.mod_eq_of_lt h

/-- Six bits under the mark of a tail. -/
theorem tail_ofNat (n : Nat) : Tail (UInt8.ofNat (n % 0x40 + 0x80)) := by
  simp only [Tail, UInt8.le_iff_toNat_le]
  rw [toNat_ofNat (by omega)]
  simp
  omega

/-- Every character is in the table. -/
theorem sequence_encode (x : Char) : Sequence (String.utf8EncodeChar x) := by
  have valid : x.val.toNat < 0xD800 ∨ 0xDFFF < x.val.toNat ∧ x.val.toNat < 0x110000 := x.valid
  unfold String.utf8EncodeChar
  generalize x.val.toNat = n at valid
  simp only
  split
  case isTrue =>
    apply Sequence.one
    rw [UInt8.le_iff_toNat_le, toNat_ofNat (by omega)]
    assumption
  split
  case isTrue =>
    apply Sequence.two ?_ ?_ (tail_ofNat _)
    all_goals
      rw [UInt8.le_iff_toNat_le, toNat_ofNat (by omega)]
      simp
      omega
  split
  case isTrue =>
    apply Sequence.three ?_ ?_ (tail_ofNat _) (tail_ofNat _) ?_ ?_
    all_goals
      simp only [toNat_ofNat (show n / 4096 % 0x10 + 0xE0 < 256 by omega),
        toNat_ofNat (show n / 64 % 0x40 + 0x80 < 256 by omega)]
      omega
  case isFalse =>
    apply Sequence.four ?_ ?_ (tail_ofNat _) (tail_ofNat _) (tail_ofNat _) ?_ ?_
    all_goals
      simp only [toNat_ofNat (show n / 262144 % 0x08 + 0xF0 < 256 by omega),
        toNat_ofNat (show n / 4096 % 0x40 + 0x80 < 256 by omega)]
      omega

/-- The well-formed runs are the encodings of characters. -/
theorem wellFormed_iff {bytes : List UInt8} :
    WellFormed bytes ↔ ∃ cs : List Char, cs.flatMap String.utf8EncodeChar = bytes := by
  constructor
  · intro h
    induction h with
    | nil => exact ⟨[], rfl⟩
    | cons head _ ih =>
      obtain ⟨c, rfl⟩ := head.encodes
      obtain ⟨cs, rfl⟩ := ih
      exact ⟨c :: cs, rfl⟩
  · rintro ⟨cs, rfl⟩
    induction cs with
    | nil => exact .nil
    | cons c cs ih => exact .cons (sequence_encode c) ih

/-! ## What decoding finds -/

/-- A character read at a place was encoded there. -/
theorem encode_read {bytes : ByteArray} {i : Nat} {c : Char} (found : bytes.utf8DecodeChar? i = some c) :
    [c].utf8Encode = bytes.extract i (i + c.utf8Size) := by
  have room := ByteArray.le_size_of_utf8DecodeChar?_eq_some found
  rw [ByteArray.utf8DecodeChar?_eq_utf8DecodeChar?_extract] at found
  have read := String.toByteArray_utf8EncodeChar_of_utf8DecodeChar?_eq_some found
  rw [ByteArray.extract_extract, Nat.add_zero, Nat.min_eq_left room] at read
  rw [List.utf8Encode_singleton, read]

/-- Decoding reads what was encoded in the bytes it passes over. -/
theorem decodeFrom_reads (bytes : ByteArray) (i : Nat) (inside : i ≤ bytes.size) :
    i ≤ (decodeFrom bytes i).2 ∧ (decodeFrom bytes i).2 ≤ bytes.size ∧
      (decodeFrom bytes i).1.utf8Encode = bytes.extract i (decodeFrom bytes i).2 := by
  fun_induction decodeFrom bytes i with
  | case1 i none => simp [inside]
  | case2 i c found more cs stop rest ih =>
    simp only [rest] at ih
    have room := ByteArray.le_size_of_utf8DecodeChar?_eq_some found
    obtain ⟨past, size, read⟩ := ih room
    have whole : (c :: cs).utf8Encode = bytes.extract i stop := by
      rw [← List.singleton_append, List.utf8Encode_append, read, encode_read found,
        ← ByteArray.extract_eq_extract_append_extract _ (Nat.le_add_right _ _) past]
    exact ⟨by omega, size, whole⟩
  | case3 i c found done => simp [inside]

/-- Decoding passes over all the characters that were encoded from a place on. -/
theorem decodeFrom_passes (cs : List Char) (rest : ByteArray) : ∀ front : ByteArray,
    front.size + cs.utf8Encode.size ≤ (decodeFrom (front ++ (cs.utf8Encode ++ rest)) front.size).2 := by
  induction cs with
  | nil =>
    intro front
    exact (decodeFrom_reads _ _ (by simp)).1
  | cons c cs ih =>
    intro front
    have all : (c :: cs).utf8Encode = [c].utf8Encode ++ cs.utf8Encode := List.utf8Encode_append (l := [c])
    have next := ih (front ++ [c].utf8Encode)
    rw [all, ByteArray.append_assoc, decodeFrom_char, ByteArray.size_append, ← Nat.add_assoc,
      ← ByteArray.size_append (a := front)]
    exact next

theorem validUpTo_le (bytes : List UInt8) : validUpTo bytes ≤ bytes.length :=
  (decodeFrom_reads ⟨bytes.toArray⟩ 0 (Nat.zero_le _)).2.1

/-- The text that is read is encoded by the bytes up to the place where reading stops. -/
theorem bytesOf_decoded (bytes : List UInt8) : bytesOf (decoded bytes) = bytes.take (validUpTo bytes) := by
  have read := (decodeFrom_reads ⟨bytes.toArray⟩ 0 (Nat.zero_le _)).2.2
  have text : (decoded bytes).toByteArray = (decodeFrom ⟨bytes.toArray⟩ 0).1.utf8Encode := by
    simp [decoded]
  rw [bytesOf, String.toUTF8, text, read]
  simp [validUpTo, ByteArray.data_extract]

theorem bytesOf_eq (t : String) : bytesOf t = t.toList.flatMap String.utf8EncodeChar := by
  rw [bytesOf, String.toUTF8, ← String.utf8Encode_toList, List.utf8Encode, List.data_toByteArray]

/-- The bytes of a text are well formed. -/
theorem wellFormed_bytesOf (t : String) : WellFormed (bytesOf t) :=
  wellFormed_iff.mpr ⟨t.toList, (bytesOf_eq t).symm⟩

/-- Reading stops behind the longest run at the front that is well formed. -/
theorem validUpTo_greatest (bytes : List UInt8) :
    IsGreatest {k | k ≤ bytes.length ∧ WellFormed (bytes.take k)} (validUpTo bytes) := by
  constructor
  · have read := wellFormed_bytesOf (decoded bytes)
    rw [bytesOf_decoded] at read
    exact ⟨validUpTo_le bytes, read⟩
  · intro k ⟨short, front⟩
    obtain ⟨cs, encoded⟩ := wellFormed_iff.mp front
    have split : (⟨bytes.toArray⟩ : ByteArray) =
        ByteArray.empty ++ (cs.utf8Encode ++ (bytes.drop k).toByteArray) := by
      apply ByteArray.ext
      simp [List.utf8Encode, encoded]
    have size : cs.utf8Encode.size = k := by
      simp [List.utf8Encode, encoded, short]
    have passed := decodeFrom_passes cs (bytes.drop k).toByteArray ByteArray.empty
    rw [← split, size] at passed
    simpa [validUpTo] using passed

theorem validUpTo_eq_length {bytes : List UInt8} : validUpTo bytes = bytes.length ↔ WellFormed bytes := by
  constructor
  · intro all
    have front := (validUpTo_greatest bytes).1.2
    rwa [all, List.take_length] at front
  · intro h
    have whole : bytes.length ∈ {k | k ≤ bytes.length ∧ WellFormed (bytes.take k)} :=
      ⟨Nat.le_refl _, by rwa [List.take_length]⟩
    exact Nat.le_antisymm (validUpTo_le bytes) ((validUpTo_greatest bytes).2 whole)

end Text

/-! ## Views of unknown origin -/

namespace TextView

/-- The view of so many bytes of a buffer, from a place in it on. -/
def inside (buffer : List UInt8) (offset : Nat) (len : UInt64) : TextView := ⟨some (buffer.drop offset), len⟩

/-- The bytes in that view. -/
def seen (buffer : List UInt8) (offset : Nat) (len : UInt64) : List UInt8 :=
  (buffer.drop offset).take len.toNat

variable {buffer : List UInt8} {offset : Nat} {len : UInt64}

theorem bytes?_inside : (inside buffer offset len).bytes? = some (seen buffer offset len) := by
  by_cases nothing : len = 0
  · subst nothing
    rfl
  · simp [inside, bytes?, View.elements?, View.isEmpty, nothing, seen]

theorem length_seen (within : offset + len.toNat ≤ buffer.length) :
    (seen buffer offset len).length = len.toNat := by
  unfold seen
  simp
  omega

theorem trusted_inside : (inside buffer offset len).trusted = Text.decoded (seen buffer offset len) := by
  rw [trusted, bytes?_inside]
  rfl

theorem text_wellFormed (h : Text.WellFormed (seen buffer offset len)) :
    (inside buffer offset len).text = .ok (Text.decoded (seen buffer offset len)) := by
  unfold text
  rw [bytes?_inside]
  simp [Text.validUpTo_eq_length.mpr h]

theorem text_malformed (h : ¬ Text.WellFormed (seen buffer offset len)) :
    (inside buffer offset len).text =
      .error (.notUtf8 (UInt64.ofNat (Text.validUpTo (seen buffer offset len)))) := by
  unfold text
  rw [bytes?_inside]
  simp [mt Text.validUpTo_eq_length.mp h]

theorem text_nowhere (len : UInt64) :
    text ⟨none, len⟩ = if len = 0 then .ok "" else .error (.nullStart len) := by
  by_cases nothing : len = 0
  · subst nothing
    have nothing : (inside [] 0 0).text = .ok (Text.decoded (Text.bytesOf "")) := text_wellFormed .nil
    rwa [Text.decoded_bytesOf] at nothing
  · simp [text, bytes?, View.elements?, View.isEmpty, nothing]

/-- The view of a text is the view of its bytes. -/
theorem ofText_eq (t : String) : ofText t = inside (Text.bytesOf t) 0 (UInt64.ofNat t.utf8ByteSize) := rfl

theorem text_ofText {t : String} (fits : Wire.Fits t) : (ofText t).text = .ok t := by
  have all : seen (Text.bytesOf t) 0 (UInt64.ofNat t.utf8ByteSize) = Text.bytesOf t := by
    have len : (UInt64.ofNat t.utf8ByteSize).toNat = t.utf8ByteSize := Wire.words_count fits
    rw [seen, len, List.drop_zero, ← Text.length_bytesOf, List.take_length]
  rw [ofText_eq, text_wellFormed (by rw [all]; exact Text.wellFormed_bytesOf t), all, Text.decoded_bytesOf]

/-- A view of bytes in a buffer is a text exactly if its bytes are well formed; the text is then encoded by
    them, and is what is read on trust. Otherwise the view is refused with the length of the longest run at
    its front that is well formed, which ends before the view does. A view that starts nowhere is refused
    unless it is empty, and the view of a text is that text. -/
theorem text_iff_utf8 :
    (∀ (buffer : List UInt8) (offset : Nat) (len : UInt64), offset + len.toNat ≤ buffer.length →
      ((∃ t, (inside buffer offset len).text = .ok t) ↔ Text.WellFormed (seen buffer offset len)) ∧
      (∀ t, (inside buffer offset len).text = .ok t →
        Text.bytesOf t = seen buffer offset len ∧ (inside buffer offset len).trusted = t) ∧
      (¬ Text.WellFormed (seen buffer offset len) →
        ∃ n, (inside buffer offset len).text = .error (.notUtf8 n) ∧ n < len ∧
          IsGreatest {k | k ≤ len.toNat ∧ Text.WellFormed ((seen buffer offset len).take k)} n.toNat)) ∧
    (∀ len, text ⟨none, len⟩ = if len = 0 then .ok "" else .error (.nullStart len)) ∧
    ∀ t, Wire.Fits t → (ofText t).text = .ok t := by
  refine ⟨fun buffer offset len within => ⟨⟨?accepted, ?accepts⟩, ?read, ?refused⟩, text_nowhere,
    fun _ => text_ofText⟩
  case accepts => exact fun h => ⟨_, text_wellFormed h⟩
  case accepted =>
    rintro ⟨t, ok⟩
    by_contra h
    rw [text_malformed h] at ok
    cases ok
  case read =>
    intro t ok
    by_cases h : Text.WellFormed (seen buffer offset len)
    · rw [text_wellFormed h] at ok
      cases ok
      rw [Text.bytesOf_decoded, Text.validUpTo_eq_length.mpr h, List.take_length]
      exact ⟨rfl, trusted_inside⟩
    · rw [text_malformed h] at ok
      cases ok
  case refused =>
    intro h
    have longest := Text.validUpTo_greatest (seen buffer offset len)
    have less : Text.validUpTo (seen buffer offset len) < len.toNat := by
      have := Text.validUpTo_le (seen buffer offset len)
      have := mt Text.validUpTo_eq_length.mp h
      rw [length_seen within] at *
      omega
    have word : (UInt64.ofNat (Text.validUpTo (seen buffer offset len))).toNat =
        Text.validUpTo (seen buffer offset len) := Wire.words_count (by have := len.toNat_lt; omega)
    rw [length_seen within] at longest
    refine ⟨_, text_malformed h, ?_, ?_⟩
    · rwa [UInt64.lt_iff_toNat_lt, word]
    · rwa [word]

/-- For example, a sequence of three bytes that is cut off behind its second one. -/
theorem text_cut_short : 1 + (5 : UInt64).toNat ≤ [0x20, 0x6F, 0x6B, 0x21, 0xE2, 0x82, 0xAC].length ∧
    (inside [0x20, 0x6F, 0x6B, 0x21, 0xE2, 0x82, 0xAC] 1 5).text = .error (.notUtf8 3) := by
  have within : 1 + (5 : UInt64).toNat ≤ [0x20, 0x6F, 0x6B, 0x21, 0xE2, 0x82, 0xAC].length := by decide
  have front : Text.validUpTo (seen [0x20, 0x6F, 0x6B, 0x21, 0xE2, 0x82, 0xAC] 1 5) = 3 := by decide +kernel
  obtain ⟨-, -, refused⟩ := text_iff_utf8.1 [0x20, 0x6F, 0x6B, 0x21, 0xE2, 0x82, 0xAC] 1 5 within
  obtain ⟨n, error, -, longest⟩ := refused (mt Text.validUpTo_eq_length.mpr (by rw [front]; decide))
  have same := longest.unique (Text.validUpTo_greatest (seen [0x20, 0x6F, 0x6B, 0x21, 0xE2, 0x82, 0xAC] 1 5))
  obtain rfl : n = 3 := UInt64.toNat_inj.mp (same.trans front)
  exact ⟨within, error⟩

end TextView

end Custody
