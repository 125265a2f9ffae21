/-
  Custody.Slots — a table that only grows: an entry gets the next index, and taking it out leaves
  its slot empty. Only `place` fills a slot of the caller's choice.
-/
namespace Custody

structure Slots (α : Type) where
  cells : Array (Option α)

namespace Slots

variable {α : Type}

def empty : Slots α := ⟨#[]⟩

/-- The index that the next entry gets. -/
def next (s : Slots α) : Nat := s.cells.size

def get? (s : Slots α) (i : Nat) : Option α := s.cells[i]?.join

def add (s : Slots α) (a : α) : Slots α := ⟨s.cells.push (some a)⟩

/-- Puts `a` into slot `i`, wherever that is. -/
def place (s : Slots α) (i : Nat) (a : α) : Slots α :=
  ⟨(s.cells ++ Array.replicate (i + 1 - s.cells.size) none).setIfInBounds i (some a)⟩

/-- Puts `a` in the place of what slot `i` held. -/
def put (s : Slots α) (i : Nat) (a : α) : Slots α := ⟨s.cells.setIfInBounds i (some a)⟩

/-- Empties slot `i`. -/
def clear (s : Slots α) (i : Nat) : Slots α := ⟨s.cells.setIfInBounds i none⟩

/-- The entries with their indices, in order. -/
def entries (s : Slots α) : List (Nat × α) :=
  s.cells.toList.zipIdx.filterMap fun c => c.1.map (c.2, ·)

@[simp] theorem next_add (s : Slots α) (a : α) : (s.add a).next = s.next + 1 := by simp [next, add]

@[simp] theorem next_put (s : Slots α) (i : Nat) (a : α) : (s.put i a).next = s.next := by simp [next, put]

@[simp] theorem next_clear (s : Slots α) (i : Nat) : (s.clear i).next = s.next := by simp [next, clear]

theorem get?_empty (i : Nat) : (empty : Slots α).get? i = none := by simp [empty, get?]

theorem lt_next_of_get? {s : Slots α} {i : Nat} {a : α} (h : s.get? i = some a) : i < s.next := by
  unfold get? at h
  rcases Nat.lt_or_ge i s.cells.size with hi | hi
  · exact hi
  · simp [hi] at h

theorem get?_next (s : Slots α) : s.get? s.next = none := by simp [get?, next]

theorem mem_entries (s : Slots α) (i : Nat) (a : α) : (i, a) ∈ s.entries ↔ s.get? i = some a := by
  simp only [entries, get?, List.mem_filterMap, Option.map_eq_some_iff, Option.join_eq_some_iff]
  constructor
  · rintro ⟨⟨cell, j⟩, mem, b, rfl, eq⟩
    obtain ⟨rfl, rfl⟩ := Prod.mk.inj eq
    rw [← Array.getElem?_toList]
    exact List.mem_zipIdx_iff_getElem?.mp mem
  · intro at_i
    rw [← Array.getElem?_toList] at at_i
    exact ⟨(some a, i), List.mem_zipIdx_iff_getElem?.mpr at_i, a, rfl, rfl⟩

/-- The slots in use are different ones. -/
theorem nodup_entries (s : Slots α) : (s.entries.map Prod.fst).Nodup := by
  have sublist : (s.entries.map Prod.fst).Sublist (s.cells.toList.zipIdx.map Prod.snd) := by
    unfold entries
    induction s.cells.toList.zipIdx with
    | nil => exact .slnil
    | cons c cs ih =>
      obtain ⟨_ | x, i⟩ := c
      · exact ih.cons i
      · exact ih.cons_cons i
  refine sublist.nodup ?_
  rw [List.zipIdx_map_snd]
  exact List.nodup_range'

theorem get?_add (s : Slots α) (a : α) (i : Nat) :
    (s.add a).get? i = if i = s.next then some a else s.get? i := by
  simp only [add, get?, next, Array.getElem?_push]
  split <;> simp_all

theorem get?_place (s : Slots α) (i j : Nat) (a : α) :
    (s.place i a).get? j = if j = i then some a else s.get? j := by
  simp only [place, get?, Array.getElem?_setIfInBounds, Array.size_append, Array.size_replicate]
  by_cases h : j = i
  · subst h
    have : j < s.cells.size + (j + 1 - s.cells.size) := by omega
    simp [this]
  · rw [if_neg (Ne.symm h), if_neg h, Array.getElem?_append]
    split
    · rfl
    · rename_i out
      rw [Array.getElem?_replicate, Array.getElem?_eq_none (by omega)]
      split <;> rfl

theorem get?_put (s : Slots α) (i j : Nat) (a : α) :
    (s.put i a).get? j = if i = j ∧ i < s.next then some a else s.get? j := by
  simp only [put, get?, next, Array.getElem?_setIfInBounds]
  by_cases h : i = j
  · subst h
    by_cases hi : i < s.cells.size <;> simp [hi]
  · simp [h]

theorem put_put (s : Slots α) (i : Nat) (a b : α) : (s.put i a).put i b = s.put i b := by
  simp [put]

theorem get?_clear (s : Slots α) (i j : Nat) :
    (s.clear i).get? j = if i = j then none else s.get? j := by
  simp only [clear, get?, Array.getElem?_setIfInBounds]
  by_cases h : i = j
  · subst h
    by_cases hi : i < s.cells.size <;> simp [hi]
  · simp [h]

/-- Nothing changes where a slot is given what it holds. -/
theorem set_self {s : Slots α} {i : Nat} {x : Option α} (h : s.get? i = x) : s.cells.setIfInBounds i x = s.cells := by
  apply Array.ext_getElem?
  intro j
  rw [Array.getElem?_setIfInBounds]
  by_cases e : i = j
  · subst e
    unfold get? at h
    cases cell : s.cells[i]? with
    | none => simp [Array.getElem?_eq_none_iff.mp cell]
    | some y =>
      obtain ⟨lt, -⟩ := Array.getElem?_eq_some_iff.mp cell
      rw [cell] at h
      simp [lt, ← h]
  · rw [if_neg e]

theorem put_self {s : Slots α} {i : Nat} {a : α} (h : s.get? i = some a) : s.put i a = s := by
  rw [put, set_self h]

theorem clear_self {s : Slots α} {i : Nat} (h : s.get? i = none) : s.clear i = s := by
  rw [clear, set_self h]

end Slots

end Custody
