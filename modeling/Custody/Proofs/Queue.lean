/-
  Custody.Proofs.Queue — a cursor over a list is a double-ended queue of the items before it.

  `c.Holds xs q` says that cursor `c` stands inside the list `xs`, front before back, with the items `q`
  between its two ends. Every way to move a cursor is then a way to take items from `q` (`Follows`): from
  the front, from the back, or from the front after some were left out. That last way is what so many
  single steps come to (`nth_eq_nexts`).
-/
import Custody.Proofs.Plain

namespace Custody

/-! ## Queues -/

namespace Queue

variable {α β : Type}

def popFront (q : List α) : Option α × List α := (q.head?, q.tail)

def popBack (q : List α) : Option α × List α := (q.getLast?, q.dropLast)

/-- Discards the first `n` items, or all if they are fewer, and takes the next one. -/
def nth (n : Nat) (q : List α) : Option α × List α := popFront (q.drop n)

/-- The same from the back. -/
def nthBack (n : Nat) (q : List α) : Option α × List α := popBack (q.take (q.length - n))

/-- Every item that comes in `n` takes or before none does. -/
def drain (pop : List α → Option α × List α) : Nat → List α → List α
  | 0, _ => []
  | n + 1, q =>
    match pop q with
    | (none, _) => []
    | (some x, q) => x :: drain pop n q

/-- The first item, and then always the one after `k` others. -/
def stride (k : Nat) : List α → List α
  | [] => []
  | x :: q => x :: stride k (q.drop k)
  termination_by q => q.length
  decreasing_by simp only [List.length_drop, List.length_cons]; omega

theorem drain_popFront (n : Nat) : ∀ q : List α, drain popFront n q = q.take n := by
  induction n with
  | zero => intro q; simp [drain]
  | succ n ih =>
    intro q
    cases q with
    | nil => rfl
    | cons x q => simp [drain, popFront, ih]

theorem drain_popBack (n : Nat) : ∀ q : List α, drain popBack n q = q.reverse.take n := by
  induction n with
  | zero => intro q; simp [drain]
  | succ n ih =>
    intro q
    rcases List.eq_nil_or_concat q with rfl | ⟨q, x, rfl⟩
    · rfl
    · simp [drain, popBack, ih]

theorem drain_nth (k n : Nat) : ∀ q : List α, q.length ≤ n → drain (nth k) n q = stride k (q.drop k) := by
  induction n with
  | zero =>
    intro q few
    obtain rfl : q = [] := List.eq_nil_of_length_eq_zero (by omega)
    simp [drain, stride]
  | succ n ih =>
    intro q few
    cases h : q.drop k with
    | nil => simp [drain, nth, popFront, h, stride]
    | cons x rest =>
      have shorter : rest.length ≤ n := by
        have := congrArg List.length h
        simp only [List.length_drop, List.length_cons] at this
        omega
      simp [drain, nth, popFront, h, stride, ih rest shorter]

/-- What is found in an empty queue, and nothing is left behind where nothing is found. -/
def Fused (pop : List α → Option α × List α) : Prop := ∀ q, (pop q).1 = none → (pop q).2 = []

theorem fused_popFront : Fused (popFront (α := α)) := by
  intro q none
  cases q with
  | nil => rfl
  | cons x q => cases none

theorem fused_popBack : Fused (popBack (α := α)) := by
  intro q none
  obtain rfl : q = [] := List.getLast?_eq_none_iff.mp none
  rfl

theorem fused_nth (n : Nat) : Fused (nth (α := α) n) := fun q => fused_popFront (q.drop n)

theorem fused_nthBack (n : Nat) : Fused (nthBack (α := α) n) := fun q => fused_popBack (q.take (q.length - n))

end Queue

/-! ## Cursors -/

namespace Cursor

variable {e : Element} {γ : Type}

structure Holds (xs : List e.Item) (c : Cursor) (q : List e.Item) : Prop where
  /-- The difference of the two ends is how far they are apart. -/
  ordered : c.front ≤ c.back
  inside : c.back.toNat ≤ xs.length
  items : q = (xs.take c.back.toNat).drop c.front.toNat

namespace Holds

variable {xs q : List e.Item} {c : Cursor}

theorem length (holds : c.Holds xs q) : q.length = c.back.toNat - c.front.toNat := by
  have := holds.inside
  rw [holds.items, List.length_drop, List.length_take]
  omega

theorem getElem? (holds : c.Holds xs q) (k : Nat) :
    q[k]? = if c.front.toNat + k < c.back.toNat then xs[c.front.toNat + k]? else none := by
  rw [holds.items, List.getElem?_drop, List.getElem?_take]

theorem le (holds : c.Holds xs q) : c.front.toNat ≤ c.back.toNat := UInt64.le_iff_toNat_le.mp holds.ordered

theorem of_getElem? (ordered : c.front.toNat ≤ c.back.toNat) (inside : c.back.toNat ≤ xs.length)
    (items : ∀ k, q[k]? = if c.front.toNat + k < c.back.toNat then xs[c.front.toNat + k]? else none) :
    c.Holds xs q := by
  refine ⟨UInt64.le_iff_toNat_le.mpr ordered, inside, List.ext_getElem? fun k => ?_⟩
  rw [items, List.getElem?_drop, List.getElem?_take]

/-- A cursor at its end has an empty queue, and only such a cursor. -/
theorem nil_iff (holds : c.Holds xs q) : q = [] ↔ c.back ≤ c.front := by
  have := holds.length
  have := holds.le
  rw [UInt64.le_iff_toNat_le, ← List.length_eq_zero_iff]
  omega

theorem remaining (holds : c.Holds xs q) : c.remaining = UInt64.ofNat q.length := by
  rw [holds.length, ← UInt64.toNat_sub_of_le _ _ holds.ordered, UInt64.ofNat_toNat]
  rfl

theorem toNat_remaining (holds : c.Holds xs q) : c.remaining.toNat = q.length := by
  rw [holds.length]
  exact UInt64.toNat_sub_of_le _ _ holds.ordered

end Holds

/-- A new cursor has as many items before it as can be counted. -/
theorem holds_ofLen_take (xs : List e.Item) :
    (ofLen (UInt64.ofNat xs.length)).Holds xs (xs.take (UInt64.ofNat xs.length).toNat) where
  ordered := by simp [ofLen]
  inside := by
    rw [ofLen, UInt64.toNat_ofNat']
    exact Nat.mod_le ..
  items := rfl

theorem holds_ofLen {xs : List e.Item} (few : xs.length < 2 ^ 64) : (ofLen (UInt64.ofNat xs.length)).Holds xs xs := by
  have holds := holds_ofLen_take xs
  rwa [UInt64.toNat_ofNat', Nat.mod_eq_of_lt few, List.take_length] at holds

/-- Moving the cursor is taking from its queue. -/
def Follows (xs : List e.Item) (step : Cursor → Id (Option e.Item × Cursor))
    (pop : List e.Item → Option e.Item × List e.Item) : Prop :=
  ∀ c q, c.Holds xs q → (step c).1 = (pop q).1 ∧ (step c).2.Holds xs (pop q).2

section
variable {xs q : List e.Item} {c : Cursor}

theorem next_of_done (done : c.back ≤ c.front) : c.next (Plain.fetch xs) = (none, c) := by
  unfold next
  simp only [done, if_true]
  rfl

/-- Before its end a cursor finds the item that it stands at. -/
theorem next_of_more (holds : c.Holds xs q) (more : ¬ c.back ≤ c.front) :
    ∃ x, xs[c.front.toNat]? = some x ∧ c.next (Plain.fetch xs) = (some x, { c with front := c.front + 1 }) := by
  have := holds.inside
  rw [UInt64.le_iff_toNat_le] at more
  have hi : c.front.toNat < xs.length := by omega
  refine ⟨xs[c.front.toNat], List.getElem?_eq_getElem hi, ?_⟩
  rw [← UInt64.le_iff_toNat_le] at more
  simp only [next, more, Plain.fetch, List.getElem?_eq_getElem hi, bind, if_false]
  rfl

theorem toNat_front_succ (more : ¬ c.back ≤ c.front) : (c.front + 1).toNat = c.front.toNat + 1 := by
  have := c.back.toNat_lt
  rw [UInt64.le_iff_toNat_le] at more
  rw [UInt64.toNat_add]
  exact Nat.mod_eq_of_lt (by simp; omega)

theorem toNat_back_pred (more : ¬ c.back ≤ c.front) : (c.back - 1).toNat = c.back.toNat - 1 := by
  rw [UInt64.le_iff_toNat_le] at more
  refine UInt64.toNat_sub_of_le _ _ ?_
  rw [UInt64.le_iff_toNat_le]
  simp only [UInt64.toNat_one]
  omega

theorem follows_next : Follows xs (next (Plain.fetch xs)) Queue.popFront := by
  intro c q holds
  by_cases done : c.back ≤ c.front
  · obtain rfl := holds.nil_iff.mpr done
    rw [next_of_done done]
    exact ⟨rfl, holds⟩
  · obtain ⟨x, at_front, step⟩ := next_of_more holds done
    have ordered := holds.le
    have front := toNat_front_succ done
    rw [step]
    rw [UInt64.le_iff_toNat_le] at done
    refine ⟨?_, .of_getElem? ?_ holds.inside fun k => ?_⟩
    · have first := holds.getElem? 0
      rw [Nat.add_zero, if_pos (by omega), at_front] at first
      rw [Queue.popFront, List.head?_eq_getElem?, first]
    · simp only [front]; omega
    · rw [Queue.popFront, List.getElem?_tail, holds.getElem?]
      simp only [front, Nat.add_assoc, Nat.add_comm 1 k]

theorem follows_nextBack : Follows xs (nextBack (Plain.fetch xs)) Queue.popBack := by
  intro c q holds
  by_cases done : c.back ≤ c.front
  · obtain rfl := holds.nil_iff.mpr done
    have step : c.nextBack (Plain.fetch xs) = (none, c) := by
      unfold nextBack
      simp only [done, if_true]
      rfl
    rw [step]
    exact ⟨rfl, holds⟩
  · have ordered := holds.le
    have inside := holds.inside
    have length := holds.length
    have back := toNat_back_pred done
    have more := done
    rw [UInt64.le_iff_toNat_le] at more
    have hi : c.back.toNat - 1 < xs.length := by omega
    have step : c.nextBack (Plain.fetch xs) = (some xs[c.back.toNat - 1], { c with back := c.back - 1 }) := by
      simp only [nextBack, done, Plain.fetch, back, List.getElem?_eq_getElem hi, bind, if_false]
      rfl
    rw [step]
    refine ⟨?_, .of_getElem? ?_ ?_ fun k => ?_⟩
    · have last := holds.getElem? (q.length - 1)
      rw [if_pos (by omega), show c.front.toNat + (q.length - 1) = c.back.toNat - 1 by omega,
        List.getElem?_eq_getElem hi] at last
      rw [Queue.popBack, List.getLast?_eq_getElem?, last]
    · simp only [back]; omega
    · simp only [back]; omega
    · rw [Queue.popBack, List.getElem?_dropLast, holds.getElem?]
      simp only [back]
      by_cases hk : k < q.length - 1
      · rw [if_pos hk, if_pos (by omega), if_pos (by omega)]
      · rw [if_neg hk, if_neg (by omega)]

/-! ### Leaving items out -/

theorem eq_of_ends {c c' : Cursor} (front : c.front.toNat = c'.front.toNat) (back : c.back = c'.back) : c = c' := by
  obtain ⟨a, b⟩ := c
  obtain ⟨a', b'⟩ := c'
  obtain rfl : a = a' := UInt64.toNat_inj.mp front
  obtain rfl : b = b' := back
  rfl

theorem toNat_front_skip (n : UInt64) (c : Cursor) :
    (c.skip n).front.toNat = min (c.front.toNat + n.toNat) c.back.toNat := by
  have := c.back.toNat_lt
  have sum := toNat_satAdd c.front n
  simp only [UInt64.size] at sum
  unfold skip
  simp only
  split
  · rename_i h
    rw [UInt64.le_iff_toNat_le] at h
    omega
  · rename_i h
    rw [UInt64.le_iff_toNat_le] at h
    omega

theorem Holds.skip (holds : c.Holds xs q) (n : UInt64) : (c.skip n).Holds xs (q.drop n.toNat) := by
  have front := toNat_front_skip n c
  have ordered := holds.le
  have back : (c.skip n).back = c.back := rfl
  refine .of_getElem? ?_ holds.inside fun k => ?_
  · rw [back]; omega
  · rw [List.getElem?_drop, holds.getElem?, front, back]
    by_cases hk : c.front.toNat + (n.toNat + k) < c.back.toNat
    · rw [if_pos hk, if_pos (by omega), show min (c.front.toNat + n.toNat) c.back.toNat + k =
        c.front.toNat + (n.toNat + k) by omega]
    · rw [if_neg hk, if_neg (by omega)]

theorem follows_nth (n : UInt64) : Follows xs (nth (Plain.fetch xs) n) (Queue.nth n.toNat) :=
  fun c q holds => follows_next (c.skip n) (q.drop n.toNat) (holds.skip n)

/-- The item that comes after `n` others, by taking all of them. -/
def nexts (fetch : UInt64 → Id (Option e.Item)) : Nat → Cursor → Id (Option e.Item × Cursor)
  | 0, c => c.next fetch
  | n + 1, c => nexts fetch n (c.next fetch).2

theorem nexts_of_done (done : c.back ≤ c.front) (n : Nat) : nexts (Plain.fetch xs) n c = (none, c) := by
  induction n with
  | zero => exact next_of_done done
  | succ n ih => rw [nexts, next_of_done done]; exact ih

/-- Leaving out items and taking one is taking them all one at a time, up to the place where it ends. -/
theorem nth_eq_nexts (n : Nat) : ∀ {c : Cursor} {q : List e.Item} {m : UInt64}, c.Holds xs q → m.toNat = n →
    c.nth (Plain.fetch xs) m = nexts (Plain.fetch xs) n c := by
  induction n with
  | zero =>
    intro c q m holds hm
    have ordered := holds.le
    have here := toNat_front_skip m c
    have same : c.skip m = c := eq_of_ends (by omega) rfl
    rw [nth, same, nexts]
  | succ n ih =>
    intro c q m holds hm
    have ordered := holds.le
    have skipped := toNat_front_skip m c
    by_cases done : c.back ≤ c.front
    · have at_end := UInt64.le_iff_toNat_le.mp done
      have same : c.skip m = c := eq_of_ends (by omega) rfl
      rw [nexts_of_done done, nth, same, next_of_done done]
    · obtain ⟨x, -, step⟩ := next_of_more holds done
      have rest := (follows_next c q holds).2
      have front := toNat_front_succ done
      have pred : (m - 1).toNat = n := by
        rw [UInt64.toNat_sub_of_le _ _ (by rw [UInt64.le_iff_toNat_le, UInt64.toNat_one]; omega), UInt64.toNat_one]
        omega
      have skipped' := toNat_front_skip (m - 1) { c with front := c.front + 1 }
      simp only [front, pred] at skipped'
      have same : c.skip m = skip (m - 1) { c with front := c.front + 1 } := eq_of_ends (by omega) rfl
      rw [nexts, ← ih rest pred, step, nth, same, nth]

/-! ### From the back, and to the end -/

/-- Taking `n` items from the back succeeds if there are as many, and leaves none if there are not. -/
theorem skipBack_holds (n : Nat) : ∀ {c : Cursor} {q : List e.Item}, c.Holds xs q →
    (skipBack (Plain.fetch xs) n c : Id (Bool × Cursor)).1 = decide (n ≤ q.length) ∧
      (skipBack (Plain.fetch xs) n c : Id (Bool × Cursor)).2.Holds xs (q.take (q.length - n)) := by
  induction n with
  | zero =>
    intro c q holds
    simp only [Nat.zero_le, decide_true, Nat.sub_zero, List.take_length]
    exact ⟨rfl, holds⟩
  | succ n ih =>
    intro c q holds
    obtain ⟨found, rest⟩ := follows_nextBack c q holds
    unfold skipBack
    simp only [bind]
    generalize nextBack (Plain.fetch xs) c = r at found rest
    obtain ⟨x, c'⟩ := r
    rcases List.eq_nil_or_concat q with rfl | ⟨q, y, rfl⟩
    · obtain rfl : x = none := found
      have rest : c'.Holds xs [] := rest
      rw [List.take_nil]
      exact ⟨by simp; rfl, rest⟩
    · obtain rfl : x = some y := by simpa [Queue.popBack] using found
      rw [Queue.popBack, List.concat_eq_append, List.dropLast_concat] at rest
      have size : (q.concat y).length - (n + 1) = q.length - n := by simp
      rw [size, List.concat_eq_append, List.take_append_of_le_length (by omega), List.length_append]
      simpa using ih rest

theorem follows_nthBack (n : UInt64) : Follows xs (nthBack (Plain.fetch xs) n) (Queue.nthBack n.toNat) := by
  intro c q holds
  obtain ⟨found, rest⟩ := skipBack_holds (min n.toNat (c.remaining.toNat + 1)) holds
  have left := holds.toNat_remaining
  unfold nthBack
  simp only [bind]
  generalize skipBack (Plain.fetch xs) (min n.toNat (c.remaining.toNat + 1)) c = r at found rest
  obtain ⟨all, c'⟩ := r
  by_cases enough : n.toNat ≤ q.length
  · obtain rfl : all = true := by rw [show all = _ from found, decide_eq_true_eq]; omega
    rw [show min n.toNat (c.remaining.toNat + 1) = n.toNat by omega] at rest
    exact follows_nextBack c' _ rest
  · obtain rfl : all = false := by rw [show all = _ from found, decide_eq_false_iff_not]; omega
    rw [show q.length - min n.toNat (c.remaining.toNat + 1) = 0 by omega] at rest
    rw [Queue.nthBack, show q.length - n.toNat = 0 by omega]
    exact ⟨rfl, rest⟩

section
variable {step : Cursor → Id (Option e.Item × Cursor)} {pop : List e.Item → Option e.Item × List e.Item}
  (follows : Follows xs step pop)

include follows

theorem gather_follows (look : e.Item → Id γ) (n : Nat) : ∀ {c : Cursor} {q : List e.Item}, c.Holds xs q →
    (gather step look n c : Id (List γ)) = (Queue.drain pop n q).map look := by
  induction n with
  | zero => intro c q _; rfl
  | succ n ih =>
    intro c q holds
    obtain ⟨found, rest⟩ := follows c q holds
    unfold gather Queue.drain
    simp only [bind]
    generalize step c = r at found rest
    generalize pop q = r' at found rest
    obtain ⟨x, c'⟩ := r
    obtain ⟨y, q'⟩ := r'
    obtain rfl : x = y := found
    cases x with
    | none => rfl
    | some x => exact congrArg (look x :: ·) (ih rest)

theorem lastOf_follows (n : Nat) : ∀ {c : Cursor} {q : List e.Item} {last : Option e.Item}, c.Holds xs q →
    (lastOf step n last c : Id (Option e.Item)) = (Queue.drain pop n q).getLast?.or last := by
  induction n with
  | zero => intro c q last _; rfl
  | succ n ih =>
    intro c q last holds
    obtain ⟨found, rest⟩ := follows c q holds
    unfold lastOf Queue.drain
    simp only [bind]
    generalize step c = r at found rest
    generalize pop q = r' at found rest
    obtain ⟨x, c'⟩ := r
    obtain ⟨y, q'⟩ := r'
    obtain rfl : x = y := found
    cases x with
    | none => rfl
    | some x =>
      refine (ih rest).trans ?_
      rw [List.getLast?_cons]
      cases (Queue.drain pop n q').getLast? <;> rfl

end

theorem toList_holds (holds : c.Holds xs q) (look : e.Item → Id γ) :
    (c.toList (Plain.fetch xs) look : Id (List γ)) = q.map look := by
  rw [toList, gather_follows follows_next look _ holds, Queue.drain_popFront, holds.toNat_remaining, List.take_length]

theorem toListRev_holds (holds : c.Holds xs q) (look : e.Item → Id γ) :
    (c.toListRev (Plain.fetch xs) look : Id (List γ)) = q.reverse.map look := by
  rw [toListRev, gather_follows follows_nextBack look _ holds, Queue.drain_popBack, holds.toNat_remaining,
    ← List.length_reverse, List.take_length]

theorem last_holds (holds : c.Holds xs q) : (c.last (Plain.fetch xs) : Id (Option e.Item)) = q.getLast? := by
  rw [last, lastOf_follows follows_next _ holds, Queue.drain_popFront, holds.toNat_remaining, List.take_length,
    Option.or_none]

theorem toListSkipping_holds (holds : c.Holds xs q) (look : e.Item → Id γ) (gap : UInt64) :
    (c.toListSkipping (Plain.fetch xs) look gap : Id (List γ)) = (Queue.stride gap.toNat q).map look := by
  obtain ⟨found, rest⟩ := follows_nth 0 c q holds
  unfold toListSkipping
  simp only [bind]
  generalize nth (Plain.fetch xs) 0 c = r at found rest
  obtain ⟨x, c'⟩ := r
  cases q with
  | nil =>
    obtain rfl : x = none := found
    rw [Queue.stride]
    rfl
  | cons y q =>
    obtain rfl : x = some y := found
    have rest : c'.Holds xs q := rest
    have walked := gather_follows (follows_nth gap) look c'.remaining.toNat rest
    rw [Queue.drain_nth _ _ _ (Nat.le_of_eq rest.toNat_remaining.symm)] at walked
    rw [Queue.stride, List.map_cons]
    exact congrArg (look y :: ·) walked

end

end Cursor

end Custody
