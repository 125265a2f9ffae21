/-
  Custody.Proofs.Sums — when the numbers of a vector have a sum.

  The sum is added up from the front and is given up as soon as it is no longer a 64-bit number. So what
  counts is not the total alone but every sum of the first few numbers (`StaysInRange`): the task reports the
  exact total if all of them are in range, and the overflow otherwise (`numbers_sums`). A total that is out
  of range is always refused; one that is in range may be refused as well, and then another order of the same
  numbers may not be (`sum_refused_by_order`). Numbers of one sign are summed up whenever their total is in
  range. Either way the vector is given back first.
-/
import Mathlib.Algebra.BigOperators.Group.List.Basic
import Mathlib.Algebra.Ring.Int.Defs
import Custody.Proofs.Tasks

namespace Custody.Command

/-- The exact sum of the numbers. -/
def total (values : List Primitive.i64.Value) : Int := (values.map BitVec.toInt).sum

/-- Whether a number is one of 64 bits. -/
def InRange (n : Int) : Prop := -(2 ^ 63) ≤ n ∧ n < 2 ^ 63

instance (n : Int) : Decidable (InRange n) := inferInstanceAs (Decidable (_ ∧ _))

/-- No sum of the first few numbers is out of range. -/
def StaysInRange (values : List Primitive.i64.Value) : Prop :=
  ∀ n ≤ values.length, InRange (total (values.take n))

instance (values : List Primitive.i64.Value) : Decidable (StaysInRange values) :=
  inferInstanceAs (Decidable (∀ n ≤ values.length, _))

@[simp] theorem total_nil : total [] = 0 := rfl

@[simp] theorem total_cons (x : Primitive.i64.Value) (xs : List Primitive.i64.Value) :
    total (x :: xs) = x.toInt + total xs := by simp [total]

theorem total_append (xs ys : List Primitive.i64.Value) : total (xs ++ ys) = total xs + total ys := by
  simp [total]

theorem total_perm {xs ys : List Primitive.i64.Value} (perm : xs.Perm ys) : total xs = total ys :=
  (perm.map _).sum_eq

/-- The total is the last of the sums. -/
theorem StaysInRange.total {values : List Primitive.i64.Value} (stays : StaysInRange values) :
    InRange (total values) := by
  have last := stays values.length (Nat.le_refl _)
  rwa [List.take_length] at last

/-! ## The sum, added up from the front -/

theorem sumFrom_nil (sum : Int) : sumFrom sum [] = some sum := rfl

theorem sumFrom_cons (sum : Int) (x : Primitive.i64.Value) (rest : List Primitive.i64.Value) :
    sumFrom sum (x :: rest) = if InRange (sum + x.toInt) then sumFrom (sum + x.toInt) rest else none := by
  show (if -(2 ^ 63) ≤ sum + x.toInt && sum + x.toInt < 2 ^ 63 then sumFrom (sum + x.toInt) rest else none) = _
  exact if_congr (by simp [InRange]) rfl rfl

/-- Every sum on the way has to be in range, and then the last one is the result. -/
theorem sumFrom_eq (values : List Primitive.i64.Value) : ∀ {sum : Int}, InRange sum →
    sumFrom sum values =
      if ∀ n ≤ values.length, InRange (sum + total (values.take n)) then some (sum + total values)
      else none := by
  induction values with
  | nil =>
    intro sum inRange
    simp [sumFrom_nil, inRange]
  | cons x rest ih =>
    intro sum inRange
    have steps : (∀ n ≤ (x :: rest).length, InRange (sum + total ((x :: rest).take n))) ↔
        InRange (sum + x.toInt) ∧ ∀ n ≤ rest.length, InRange (sum + x.toInt + total (rest.take n)) := by
      constructor
      · intro all
        refine ⟨?_, fun n hn => ?_⟩
        · have first := all 1 (by simp)
          simpa using first
        · have next := all (n + 1) (by simp; omega)
          rwa [List.take_succ_cons, total_cons, ← Int.add_assoc] at next
      · rintro ⟨_, later⟩ n hn
        cases n with
        | zero => simpa using inRange
        | succ n =>
          rw [List.take_succ_cons, total_cons, ← Int.add_assoc]
          exact later n (by simp at hn; omega)
    rw [sumFrom_cons]
    by_cases fits : InRange (sum + x.toInt)
    · simp only [fits, if_true, ih fits, steps, true_and, total_cons, Int.add_assoc]
    · simp only [fits, if_false, steps, false_and]

theorem summed_eq (values : List Primitive.i64.Value) : summed values =
    if StaysInRange values then .ok (values, total values) else .error (.sumOverflow values.length) := by
  have zero : InRange 0 := by decide
  have all : (∀ n ≤ values.length, InRange (0 + total (values.take n))) ↔ StaysInRange values := by
    simp [StaysInRange]
  unfold summed
  rw [sumFrom_eq values zero, Int.zero_add]
  by_cases stays : StaysInRange values
  · rw [if_pos (all.mpr stays), if_pos stays]
  · rw [if_neg (fun h => stays (all.mp h)), if_neg stays]

/-! ## Numbers of one sign -/

theorem total_nonneg {values : List Primitive.i64.Value} (sign : ∀ x ∈ values, 0 ≤ x.toInt) :
    0 ≤ total values := by
  induction values with
  | nil => simp
  | cons x rest ih =>
    have first := sign x (by simp)
    have later := ih fun y hy => sign y (by simp [hy])
    simp; omega

theorem total_nonpos {values : List Primitive.i64.Value} (sign : ∀ x ∈ values, x.toInt ≤ 0) :
    total values ≤ 0 := by
  induction values with
  | nil => simp
  | cons x rest ih =>
    have first := sign x (by simp)
    have later := ih fun y hy => sign y (by simp [hy])
    simp; omega

/-- Sums of numbers of one sign go one way, so the last one is the farthest. -/
theorem staysInRange_of_sign {values : List Primitive.i64.Value}
    (sign : (∀ x ∈ values, 0 ≤ x.toInt) ∨ ∀ x ∈ values, x.toInt ≤ 0)
    (inRange : InRange (total values)) : StaysInRange values := by
  intro n hn
  have parts := total_append (values.take n) (values.drop n)
  rw [List.take_append_drop] at parts
  unfold InRange at *
  rcases sign with sign | sign
  · have before : 0 ≤ total (values.take n) := total_nonneg fun x hx => sign x (List.mem_of_mem_take hx)
    have after : 0 ≤ total (values.drop n) := total_nonneg fun x hx => sign x (List.mem_of_mem_drop hx)
    omega
  · have before : total (values.take n) ≤ 0 := total_nonpos fun x hx => sign x (List.mem_of_mem_take hx)
    have after : total (values.drop n) ≤ 0 := total_nonpos fun x hx => sign x (List.mem_of_mem_drop hx)
    omega

/-! ## The task -/

/-- The task ends with the sum of its numbers, and all that is left in the store is that a vector came and
    went. -/
theorem run_numbers (values : List Primitive.i64.Value) (few : values.length < 2 ^ 64) (st : Store) :
    ∃ st', (numbers values).run st = .ok (summed values, st') ∧
      st'.world = st.world.counts [.vectorAlloc, .vectorFree 0] := by
  obtain ⟨_, st', run, rfl, world⟩ := wp_numbers values (w := st.world)
    (Q := fun result w => result = summed (values.take (Wire.words.count values.length)) ∧
      w = st.world.counts (Task.numbers values).events) ⟨rfl, rfl⟩ st rfl
  rw [Wire.words_count few, List.take_length] at run
  exact ⟨st', run, world⟩

/-- The numbers and their exact sum are reported if no sum on the way is out of range, and the overflow of
    that many values if one is. A total out of range is never reported, a total of numbers of one sign always
    is if it is in range, and two orders that are both summed up have the same sum. -/
theorem numbers_sums (values : List Primitive.i64.Value) (few : values.length < 2 ^ 64) (st : Store) :
    (∃ result st', (numbers values).run st = .ok (result, st') ∧
      st'.world = st.world.counts [.vectorAlloc, .vectorFree 0] ∧
      (StaysInRange values → result = .ok (values, total values)) ∧
      (¬ StaysInRange values → ∃ e, result = .error e ∧
        e.message = "sum of " ++ toString values.length ++ " values overflows i64")) ∧
    (StaysInRange values → InRange (total values)) ∧
    (((∀ x ∈ values, 0 ≤ x.toInt) ∨ ∀ x ∈ values, x.toInt ≤ 0) → InRange (total values) →
      StaysInRange values) ∧
    ∀ reordered, values.Perm reordered → total reordered = total values := by
  obtain ⟨st', run, world⟩ := run_numbers values few st
  refine ⟨⟨_, st', run, world, fun stays => ?_, fun leaves => ?_⟩, StaysInRange.total, staysInRange_of_sign,
    fun _ perm => (total_perm perm).symm⟩
  · rw [summed_eq, if_pos stays]
  · rw [summed_eq, if_neg leaves]
    exact ⟨_, rfl, rfl⟩

/-- For example, three numbers in an order in which every sum on the way is in range. -/
theorem numbers_sums_negative_first :
    ([BitVec.ofInt 64 (-1), BitVec.ofInt 64 (2 ^ 63 - 1), 1#64] : List Primitive.i64.Value).length < 2 ^ 64 ∧
      ∃ st', (numbers [BitVec.ofInt 64 (-1), BitVec.ofInt 64 (2 ^ 63 - 1), 1#64]).run .initial =
        .ok (.ok ([BitVec.ofInt 64 (-1), BitVec.ofInt 64 (2 ^ 63 - 1), 1#64], 2 ^ 63 - 1), st') := by
  obtain ⟨⟨result, st', run, -, reported, -⟩, -⟩ :=
    numbers_sums [BitVec.ofInt 64 (-1), BitVec.ofInt 64 (2 ^ 63 - 1), 1#64] (by decide) .initial
  rw [reported (by decide)] at run
  exact ⟨by decide, st', run⟩

/-- The same three numbers have no sum in another order, although their total is in range. -/
theorem sum_refused_by_order : ∃ values reordered : List Primitive.i64.Value, values.Perm reordered ∧
    InRange (total values) ∧
    (∃ st, (numbers values).run .initial = .ok (.error (.sumOverflow 3), st)) ∧
    ∃ st, (numbers reordered).run .initial = .ok (.ok (reordered, total values), st) := by
  obtain ⟨st, refused, -⟩ :=
    run_numbers [BitVec.ofInt 64 (2 ^ 63 - 1), 1#64, BitVec.ofInt 64 (-1)] (by decide) .initial
  obtain ⟨st', summed, -⟩ :=
    run_numbers [BitVec.ofInt 64 (-1), BitVec.ofInt 64 (2 ^ 63 - 1), 1#64] (by decide) .initial
  exact ⟨_, _, @List.perm_append_comm _ [_, _] [_], by decide, ⟨st, refused⟩, ⟨st', summed⟩⟩

end Custody.Command
