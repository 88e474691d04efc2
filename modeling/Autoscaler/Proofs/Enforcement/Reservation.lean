import Autoscaler.Enforcement.Bounds
import Autoscaler.Proofs.Zone.Totals

/-!
# Reservations

Until its plan has been carried out, a zone set may hold what it held or what it plans: anything
between `least` and `most`. The bounds of a zone set are closed forms in these amounts of the others
(`get_maximumFor`, `get_minimumFor`). While the total of `most` stays under the ceiling and that of
`least` over the floor, what a zone set holds lies between its bounds, and a plan between the bounds
keeps both totals where they are.
-/

namespace Autoscaler.Holdings

/-- The most of a dimension that a zone set may hold, whether or not its plan is carried out. -/
def most (h : Holdings) (d : String) (z : ZoneSet) : Nat :=
  max ((h.enforced.get z).get d) ((h.planned.get z).get d)

/-- The least that it may hold. A zone set without a plan keeps what it holds. -/
def least (h : Holdings) (d : String) (z : ZoneSet) : Nat :=
  match h.planned.get? z with
  | some plan => min ((h.enforced.get z).get d) (plan.get d)
  | none => (h.enforced.get z).get d

/-- What is known once a zone set has planned. -/
def withPlan (h : Holdings) (z : ZoneSet) (plan : Capacity) : Holdings :=
  { h with planned := h.planned.set z plan }

variable {h : Holdings} {z : ZoneSet} {d : String}

theorem most_eq_of_unplanned (unplanned : h.planned.get? z = none) :
    h.most d z = (h.enforced.get z).get d := by
  simp [most, Allocation.get_eq, unplanned]

theorem least_eq_of_unplanned (unplanned : h.planned.get? z = none) :
    h.least d z = (h.enforced.get z).get d := by
  simp [least, unplanned]

theorem most_withPlan (plan : Capacity) (o : ZoneSet) :
    (h.withPlan z plan).most d o =
      if o = z then max ((h.enforced.get z).get d) (plan.get d) else h.most d o := by
  by_cases same : o = z
  · subst same
    simp [most, withPlan]
  · simp [most, withPlan, same, Ne.symm same]

theorem least_withPlan (plan : Capacity) (o : ZoneSet) :
    (h.withPlan z plan).least d o =
      if o = z then min ((h.enforced.get z).get d) (plan.get d) else h.least d o := by
  by_cases same : o = z
  · subst same
    simp [least, withPlan]
  · simp [least, withPlan, same, Ne.symm same]

/-! ## The bounds in these amounts -/

theorem get_ceiling (perZoneMax : Capacity) (o : ZoneSet) :
    (h.ceiling perZoneMax o).get d = min (perZoneMax.get d) (h.most d o) := by
  simp [ceiling, most]

/-- A plan of no capacity is taken for none, which only raises the floor. -/
theorem least_le_floor (perZoneMin : Capacity) (o : ZoneSet) :
    h.least d o ≤ (h.floor perZoneMin o).get d := by
  rw [floor, least]
  cases found : h.planned.get? o with
  | none => simp [Allocation.get_eq, found, Capacity.isZero_iff]
  | some plan =>
    by_cases none : plan.isZero = true
    · simp only [Allocation.get_eq, found, Option.getD_some, none, if_true, Capacity.get_max]
      omega
    · simp [Allocation.get_eq, found, none]

theorem le_floor (perZoneMin : Capacity) (o : ZoneSet) :
    perZoneMin.get d ≤ (h.floor perZoneMin o).get d := by
  unfold floor
  split
  · rw [Capacity.get_max]
    exact Nat.le_max_right _ _
  · rw [Capacity.get_max]
    exact Nat.le_max_left _ _

theorem get_floor (perZoneMin : Capacity) {o : ZoneSet}
    (some : ∀ plan, h.planned.get? o = some plan → plan ≠ 0) :
    (h.floor perZoneMin o).get d = max (perZoneMin.get d) (h.least d o) := by
  rw [floor, least]
  cases found : h.planned.get? o with
  | none => simp [Allocation.get_eq, found, Capacity.isZero_iff, max_comm]
  | some plan => simp [Allocation.get_eq, found, Capacity.isZero_iff, some plan found]

theorem get_maximumFor (total perZoneMax : Capacity) :
    (h.maximumFor z total perZoneMax).get d = min (perZoneMax.get d)
      (total.get d - ((h.others z).map fun o => min (perZoneMax.get d) (h.most d o)).sum) := by
  rw [maximumFor, Capacity.get_min, Capacity.get_sub_sum, List.map_map]
  congr 4
  exact funext fun o => get_ceiling perZoneMax o

theorem get_minimumFor (total perZoneMin : Capacity) :
    (h.minimumFor z total perZoneMin).get d = max (perZoneMin.get d)
      (total.get d - ((h.others z).map fun o => (h.floor perZoneMin o).get d).sum) := by
  rw [minimumFor, Capacity.get_max, Capacity.get_sub_sum, List.map_map]
  rfl

/-! ## Totals over distinct zone sets -/

theorem map_most_withPlan (plan : Capacity) :
    (h.others z).map ((h.withPlan z plan).most d) = (h.others z).map (h.most d) := by
  refine List.map_congr_left fun o other => ?_
  have different : o ≠ z := by simpa using (List.mem_filter.mp other).2
  rw [most_withPlan, if_neg different]

theorem map_least_withPlan (plan : Capacity) :
    (h.others z).map ((h.withPlan z plan).least d) = (h.others z).map (h.least d) := by
  refine List.map_congr_left fun o other => ?_
  have different : o ≠ z := by simpa using (List.mem_filter.mp other).2
  rw [least_withPlan, if_neg different]

section
variable (distinct : h.zoneSets.Nodup) (mem : z ∈ h.zoneSets)
include distinct mem

theorem sum_eq_add_others (f : ZoneSet → Nat) :
    ∑ o ∈ h.zoneSets.toFinset, f o = f z + ((h.others z).map f).sum := by
  rw [others, sum_filter_ne h.zoneSets distinct z f]
  exact (Finset.add_sum_erase _ _ (List.mem_toFinset.mpr mem)).symm

theorem length_mul_eq_add_others (n : Nat) :
    h.zoneSets.length * n = n + ((h.others z).map fun _ => n).sum := by
  rw [← sum_eq_add_others distinct mem fun _ => n, Finset.sum_const_nat fun _ _ => rfl,
    List.toFinset_card_of_nodup distinct]

/-- A total with room for the maximum of every zone set leaves each its own, whatever the others
claim. -/
theorem maximumFor_eq {total perZoneMax : Capacity}
    (room : ∀ d, h.zoneSets.length * perZoneMax.get d ≤ total.get d) :
    h.maximumFor z total perZoneMax = perZoneMax := by
  ext d
  have counted := length_mul_eq_add_others distinct mem (perZoneMax.get d)
  have claimed : ((h.others z).map fun o => min (perZoneMax.get d) (h.most d o)).sum ≤
      ((h.others z).map fun _ => perZoneMax.get d).sum :=
    List.sum_le_sum fun o _ => Nat.min_le_left _ _
  have enough := room d
  rw [get_maximumFor]
  omega

/-- A total that the minimum of every zone set covers asks nobody for more than that. -/
theorem minimumFor_eq {total perZoneMin : Capacity}
    (covered : ∀ d, total.get d ≤ h.zoneSets.length * perZoneMin.get d) :
    h.minimumFor z total perZoneMin = perZoneMin := by
  ext d
  have counted := length_mul_eq_add_others distinct mem (perZoneMin.get d)
  have kept : ((h.others z).map fun _ => perZoneMin.get d).sum ≤
      ((h.others z).map fun o => (h.floor perZoneMin o).get d).sum :=
    List.sum_le_sum fun o _ => le_floor perZoneMin o
  have enough := covered d
  rw [get_minimumFor]
  omega

variable (unplanned : h.planned.get? z = none)
include unplanned

theorem le_maximumFor {total perZoneMax : Capacity}
    (under : ∑ o ∈ h.zoneSets.toFinset, h.most d o ≤ total.get d)
    (within : (h.enforced.get z).get d ≤ perZoneMax.get d) :
    (h.enforced.get z).get d ≤ (h.maximumFor z total perZoneMax).get d := by
  rw [sum_eq_add_others distinct mem, most_eq_of_unplanned unplanned] at under
  have capped : ((h.others z).map fun o => min (perZoneMax.get d) (h.most d o)).sum ≤
      ((h.others z).map (h.most d)).sum :=
    List.sum_le_sum fun o _ => Nat.min_le_right _ _
  rw [get_maximumFor]
  omega

theorem minimumFor_le {total perZoneMin : Capacity}
    (above : total.get d ≤ ∑ o ∈ h.zoneSets.toFinset, h.least d o)
    (within : perZoneMin.get d ≤ (h.enforced.get z).get d) :
    (h.minimumFor z total perZoneMin).get d ≤ (h.enforced.get z).get d := by
  rw [sum_eq_add_others distinct mem, least_eq_of_unplanned unplanned] at above
  have raised : ((h.others z).map (h.least d)).sum ≤
      ((h.others z).map fun o => (h.floor perZoneMin o).get d).sum :=
    List.sum_le_sum fun o _ => least_le_floor perZoneMin o
  rw [get_minimumFor]
  omega

/-- Under the ceiling, the maximum of a zone set that has room in its own limit leaves it room when
that limit caps another. -/
theorem lt_maximumFor {total perZoneMax : Capacity} {o : ZoneSet}
    (under : ∑ o ∈ h.zoneSets.toFinset, h.most d o ≤ total.get d)
    (room : (h.enforced.get z).get d < perZoneMax.get d) (other : o ∈ h.others z)
    (capped : perZoneMax.get d < h.most d o) :
    (h.enforced.get z).get d < (h.maximumFor z total perZoneMax).get d := by
  rw [sum_eq_add_others distinct mem, most_eq_of_unplanned unplanned] at under
  have less : ((h.others z).map fun o => min (perZoneMax.get d) (h.most d o)).sum <
      ((h.others z).map (h.most d)).sum :=
    List.sum_lt_sum _ _ (fun o _ => Nat.min_le_right _ _)
      ⟨o, other, (Nat.min_le_left _ _).trans_lt capped⟩
  rw [get_maximumFor]
  omega

theorem minimumFor_lt {total perZoneMin : Capacity} {o : ZoneSet}
    (above : total.get d ≤ ∑ o ∈ h.zoneSets.toFinset, h.least d o)
    (room : perZoneMin.get d < (h.enforced.get z).get d) (other : o ∈ h.others z)
    (raised : h.least d o < perZoneMin.get d) :
    (h.minimumFor z total perZoneMin).get d < (h.enforced.get z).get d := by
  rw [sum_eq_add_others distinct mem, least_eq_of_unplanned unplanned] at above
  have more : ((h.others z).map (h.least d)).sum <
      ((h.others z).map fun o => (h.floor perZoneMin o).get d).sum :=
    List.sum_lt_sum _ _ (fun o _ => least_le_floor perZoneMin o)
      ⟨o, other, raised.trans_le (le_floor perZoneMin o)⟩
  rw [get_minimumFor]
  omega

/-- A plan keeps the totals under the ceiling when it goes beyond what the zone set holds only up to
its maximum, and there only if its own maximum caps no other. -/
theorem sum_most_withPlan_le {total plan : Capacity} (perZoneMax : Capacity)
    (under : ∑ o ∈ h.zoneSets.toFinset, h.most d o ≤ total.get d)
    (bounded : plan.get d ≤ (h.enforced.get z).get d ∨
      plan.get d ≤ (h.maximumFor z total perZoneMax).get d ∧
        ∀ o ∈ h.others z, h.most d o ≤ perZoneMax.get d) :
    ∑ o ∈ h.zoneSets.toFinset, (h.withPlan z plan).most d o ≤ total.get d := by
  rw [sum_eq_add_others distinct mem, most_eq_of_unplanned unplanned] at under
  have after : ∑ o ∈ h.zoneSets.toFinset, (h.withPlan z plan).most d o =
      max ((h.enforced.get z).get d) (plan.get d) + ((h.others z).map (h.most d)).sum := by
    rw [sum_eq_add_others distinct mem, most_withPlan, if_pos rfl, map_most_withPlan]
  rcases bounded with kept | ⟨bounded, uncapped⟩
  · omega
  · have same : ((h.others z).map fun o => min (perZoneMax.get d) (h.most d o)) =
        (h.others z).map (h.most d) :=
      List.map_congr_left fun o other => Nat.min_eq_right (uncapped o other)
    rw [get_maximumFor, same] at bounded
    omega

/-- A plan keeps the totals over the floor when it goes below what the zone set holds only down to
its minimum, and there only if its own minimum raises no other. -/
theorem le_sum_least_withPlan {total plan : Capacity} (perZoneMin : Capacity)
    (above : total.get d ≤ ∑ o ∈ h.zoneSets.toFinset, h.least d o)
    (bounded : (h.enforced.get z).get d ≤ plan.get d ∨
      (h.minimumFor z total perZoneMin).get d ≤ plan.get d ∧
        ∀ o ∈ h.others z, perZoneMin.get d ≤ h.least d o ∧
          ∀ p, h.planned.get? o = some p → p ≠ 0) :
    total.get d ≤ ∑ o ∈ h.zoneSets.toFinset, (h.withPlan z plan).least d o := by
  rw [sum_eq_add_others distinct mem, least_eq_of_unplanned unplanned] at above
  have after : ∑ o ∈ h.zoneSets.toFinset, (h.withPlan z plan).least d o =
      min ((h.enforced.get z).get d) (plan.get d) + ((h.others z).map (h.least d)).sum := by
    rw [sum_eq_add_others distinct mem, least_withPlan, if_pos rfl, map_least_withPlan]
  rcases bounded with kept | ⟨bounded, unraised⟩
  · omega
  · have same : ((h.others z).map fun o => (h.floor perZoneMin o).get d) =
        (h.others z).map (h.least d) := by
      refine List.map_congr_left fun o other => ?_
      obtain ⟨enough, some⟩ := unraised o other
      rw [get_floor perZoneMin some]
      exact Nat.max_eq_right enough
    rw [get_minimumFor, same] at bounded
    omega

end

end Autoscaler.Holdings
