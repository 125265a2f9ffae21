/-
  Custody.Proofs.Totals — sums over the entries of a table.

  Each entry has a weight, and the total changes as entries are put in, changed and taken out. Counting
  is weighing with ones.
-/
import Mathlib.Algebra.BigOperators.Group.Finset.Basic
import Mathlib.Algebra.Order.BigOperators.Group.Finset
import Mathlib.Tactic.Abel
import Custody.Slots

namespace Custody

namespace Slots

variable {α M : Type} [AddCommMonoid M] (f : α → M) (s : Slots α)

/-- The weights of all entries together. -/
def total : M := ∑ i ∈ Finset.range s.next, (s.get? i).elim 0 f

theorem total_add (a : α) : (s.add a).total f = s.total f + f a := by
  rw [total, next_add, Finset.sum_range_succ, get?_add, if_pos rfl, Option.elim_some]
  refine congrArg (· + f a) (Finset.sum_congr rfl fun i hi => ?_)
  rw [get?_add, if_neg (Nat.ne_of_lt (Finset.mem_range.mp hi))]

theorem total_zero {f : α → M} {s : Slots α} (zero : ∀ a, f a = 0) : s.total f = 0 := by
  refine Finset.sum_eq_zero fun i _ => ?_
  cases s.get? i with
  | none => rfl
  | some a => exact zero a

/-- Two tables with the same weights in the same slots. -/
theorem total_congr {β : Type} {t : Slots β} {g : β → M} (next : s.next = t.next)
    (same : ∀ i, (s.get? i).elim 0 f = (t.get? i).elim 0 g) : s.total f = t.total g := by
  rw [total, total, next]
  exact Finset.sum_congr rfl fun i _ => same i

theorem total_of_none (none : ∀ i, s.get? i = none) : s.total f = 0 := by
  refine Finset.sum_eq_zero fun i _ => ?_
  rw [none i]
  rfl

section
variable {s} {i : Nat} {a : α} (at_i : s.get? i = some a)

include at_i

theorem total_clear : (s.clear i).total f + f a = s.total f := by
  have mem : i ∈ Finset.range s.next := Finset.mem_range.mpr (lt_next_of_get? at_i)
  rw [total, next_clear, total, ← Finset.add_sum_erase _ _ mem, ← Finset.add_sum_erase (Finset.range s.next) _ mem,
    get?_clear, if_pos rfl, at_i, Option.elim_none, Option.elim_some, zero_add, add_comm]
  refine congrArg (f a + ·) (Finset.sum_congr rfl fun j hj => ?_)
  rw [get?_clear, if_neg (Ne.symm (Finset.ne_of_mem_erase hj))]

theorem total_put (b : α) : (s.put i b).total f + f a = s.total f + f b := by
  have lt := lt_next_of_get? at_i
  have mem : i ∈ Finset.range s.next := Finset.mem_range.mpr lt
  have rest : ∑ j ∈ (Finset.range s.next).erase i, ((s.put i b).get? j).elim 0 f =
      ∑ j ∈ (Finset.range s.next).erase i, (s.get? j).elim 0 f := by
    refine Finset.sum_congr rfl fun j hj => ?_
    rw [get?_put, if_neg fun h => Finset.ne_of_mem_erase hj h.1.symm]
  rw [total, next_put, total, ← Finset.add_sum_erase _ _ mem, ← Finset.add_sum_erase (Finset.range s.next) _ mem,
    get?_put, if_pos ⟨rfl, lt⟩, at_i, rest, Option.elim_some, Option.elim_some]
  abel

end

theorem total_of_empty {α : Type} {s : Slots α} (empty : s.total (fun _ => 1) = 0) (f : α → Nat) :
    s.total f = 0 := by
  refine Finset.sum_eq_zero fun i mem => ?_
  have none := Finset.sum_eq_zero_iff.mp empty i mem
  cases at_i : s.get? i with
  | none => rfl
  | some a => rw [at_i] at none; cases none

end Slots

end Custody
