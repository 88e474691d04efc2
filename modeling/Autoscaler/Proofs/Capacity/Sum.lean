import Autoscaler.Capacity.Lemmas
import Mathlib.Algebra.BigOperators.Group.List.Basic

/-!
# Sums of capacities and what is left of them

Sums stop at the limit in every step. Since they never come down from it, it makes no difference when
they reach it: whatever is added to what first, and in whatever order, the sum is the exact one as far
as it fits (`Bracketing.get_value`). What is left of a capacity is the least that makes it up again
together with what was taken off, at the limit as anywhere (`sub_le_iff_le_add`).
-/

namespace Autoscaler.Capacity

variable {a b c : Capacity} {cs ds : List Capacity}

/-! ## Sums in another order -/

theorem sum_perm (perm : cs.Perm ds) : sum cs = sum ds := by
  ext d
  rw [get_sum, get_sum, (perm.map _).sum_eq]

/-- A way to add up capacities, two parts at a time, where a part may also be nothing. -/
inductive Bracketing where
  | nothing
  | one (c : Capacity)
  | both (left right : Bracketing)

namespace Bracketing

/-- The capacities that are added up, from left to right. -/
def leaves : Bracketing → List Capacity
  | nothing => []
  | one c => [c]
  | both left right => left.leaves ++ right.leaves

/-- What they add up to when each bracket is added by itself. -/
def value : Bracketing → Capacity
  | nothing => 0
  | one c => c
  | both left right => left.value + right.value

theorem get_value (t : Bracketing) (d : String) :
    t.value.get d = min (t.leaves.map fun c => c.get d).sum maxAmount := by
  induction t with
  | nothing => simp [value, leaves]
  | one c =>
    have kept := c.get_le d
    simp [value, leaves, kept]
  | both left right ihLeft ihRight =>
    rw [value, leaves, get_add, ihLeft, ihRight, List.map_append, List.sum_append]
    -- What the parts have lost at the limit the whole would have lost as well.
    omega

theorem value_eq_sum (t : Bracketing) : t.value = sum t.leaves := by
  ext d
  rw [get_value, get_sum]

end Bracketing

/-- Groups may be summed up first, each for itself. -/
theorem sum_map_sum (groups : List (List Capacity)) : sum (groups.map sum) = sum groups.flatten := by
  ext d
  rw [get_sum, get_sum, List.map_map]
  induction groups with
  | nil => rfl
  | cons group rest ih =>
    rw [List.map_cons, List.sum_cons, List.flatten_cons, List.map_append, List.sum_append,
      Function.comp_apply, get_sum]
    omega

/-! ## What is left of a capacity -/

/-- What is left of a capacity fits into another exactly when the whole fits into the other with what
was taken off. The limit does not interfere, since the whole is within it. -/
theorem sub_le_iff_le_add : a - b ≤ c ↔ a ≤ b + c := by
  refine forall_congr' fun d => ?_
  have within := a.get_le d
  rw [get_sub, get_add]
  omega

theorem sub_add_eq_max (a b : Capacity) : a - b + b = max a b := by
  ext d
  have within := a.get_le d
  have other := b.get_le d
  rw [get_add, get_sub, get_max]
  omega

/-- The other way round, what the limit has cut off does not come back. -/
example : single "memory" maxAmount + single "memory" 1 - single "memory" 1 =
    single "memory" (maxAmount - 1) := by decide +kernel

end Autoscaler.Capacity
