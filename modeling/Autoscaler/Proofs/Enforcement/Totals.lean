import Autoscaler.Proofs.Enforcement.Plan
import Autoscaler.Proofs.Enforcement.Reservation

/-!
# Totals during a cycle

A cycle keeps its totals when every zone set keeps them in its turn. Here the invariants are stated
for a cycle whose zone sets may differ in everything, with the one thing that a turn needs: that a
zone set which may still grow has a maximum that caps no other (`ceiled_plans`), and one which may
still shrink a minimum that raises no other (`floored_plans`).
-/

namespace Autoscaler.Cycle

variable {c : Cycle} {status : Cooldown.Status} {statistics : Snapshot} {roster : Roster}
  {planned : Allocation} {d : String}

/-- Each policy starts from what its zone set holds. -/
def Grounded (c : Cycle) : Prop :=
  ∀ z p, c.policies[z]? = some p → p.current = c.lastEnforced.get z

/-- Whichever plans are carried out, no zone set exceeds its maximum and the total stays under the
ceiling, in one dimension. -/
structure Ceiled (c : Cycle) (planned : Allocation) (d : String) : Prop where
  each : ∀ z p, c.policies[z]? = some p → (c.holdings planned).most d z ≤ p.maxCapacity.get d
  total : ∑ z ∈ c.zoneSets.toFinset, (c.holdings planned).most d z ≤ c.totalMax.get d

/-- Whichever plans are carried out, no zone set falls below its minimum and the total stays over the
floor, in one dimension. -/
structure Floored (c : Cycle) (planned : Allocation) (d : String) : Prop where
  each : ∀ z p, c.policies[z]? = some p → p.minCapacity.get d ≤ (c.holdings planned).least d z
  total : c.totalMin.get d ≤ ∑ z ∈ c.zoneSets.toFinset, (c.holdings planned).least d z

theorem holdings_set (z : ZoneSet) (plan : Capacity) :
    c.holdings (planned.set z plan) = (c.holdings planned).withPlan z plan := rfl

theorem ceiled_empty
    (each : ∀ z p, c.policies[z]? = some p → (c.lastEnforced.get z).get d ≤ p.maxCapacity.get d)
    (total : c.lastEnforced.sumOver c.zoneSets d ≤ c.totalMax.get d) : c.Ceiled .empty d := by
  have most : ∀ z, (c.holdings .empty).most d z = (c.lastEnforced.get z).get d := fun z =>
    Holdings.most_eq_of_unplanned (Allocation.get?_empty z)
  refine ⟨fun z p found => ?_, ?_⟩
  · rw [most]
    exact each z p found
  · simpa only [Allocation.sumOver, most] using total

theorem floored_empty
    (each : ∀ z p, c.policies[z]? = some p → p.minCapacity.get d ≤ (c.lastEnforced.get z).get d)
    (total : c.totalMin.get d ≤ c.lastEnforced.sumOver c.zoneSets d) : c.Floored .empty d := by
  have least : ∀ z, (c.holdings .empty).least d z = (c.lastEnforced.get z).get d := fun z =>
    Holdings.least_eq_of_unplanned (Allocation.get?_empty z)
  refine ⟨fun z p found => ?_, ?_⟩
  · rw [least]
    exact each z p found
  · simpa only [Allocation.sumOver, least] using total

/-! ## One turn -/

section
variable {before : List (ZoneSet × Policy)} {z : ZoneSet} {p : Policy} (grounded : c.Grounded)
  (turn : c.Turn before z p)
include grounded turn

theorem most_eq_current : (c.holdings (c.plans status statistics roster before)).most d z =
    p.current.get d := by
  rw [grounded z p turn.policy_eq]
  exact Holdings.most_eq_of_unplanned turn.get?_plans

theorem least_eq_current : (c.holdings (c.plans status statistics roster before)).least d z =
    p.current.get d := by
  rw [grounded z p turn.policy_eq]
  exact Holdings.least_eq_of_unplanned turn.get?_plans

theorem Ceiled.current_le (ceiled : c.Ceiled (c.plans status statistics roster before) d) :
    p.current.get d ≤ (c.maximumFor (c.plans status statistics roster before) z p).get d := by
  have within := ceiled.each z p turn.policy_eq
  rw [most_eq_current grounded turn, grounded z p turn.policy_eq] at within
  rw [grounded z p turn.policy_eq]
  exact Holdings.le_maximumFor nodup_zoneSets turn.mem_zoneSets turn.get?_plans ceiled.total within

theorem Floored.le_current (floored : c.Floored (c.plans status statistics roster before) d) :
    (c.minimumFor (c.plans status statistics roster before) z p).get d ≤ p.current.get d := by
  have within := floored.each z p turn.policy_eq
  rw [least_eq_current grounded turn, grounded z p turn.policy_eq] at within
  rw [grounded z p turn.policy_eq]
  exact Holdings.minimumFor_le nodup_zoneSets turn.mem_zoneSets turn.get?_plans floored.total within

/-- A turn keeps the ceiling when the zone set is at its maximum or its maximum caps no other. -/
theorem Ceiled.next (ceiled : c.Ceiled (c.plans status statistics roster before) d)
    (uncapped : p.maxCapacity.get d ≤ p.current.get d ∨ ∀ o ∈ c.zoneSets, o ≠ z →
      (c.holdings (c.plans status statistics roster before)).most d o ≤ p.maxCapacity.get d) :
    c.Ceiled ((c.plans status statistics roster before).set z ((c.verdict status statistics roster
      (c.plans status statistics roster before) z p).plan p.current)) d := by
  have within := ceiled.each z p turn.policy_eq
  rw [most_eq_current grounded turn] at within
  have bounded := plan_le c status statistics roster (c.plans status statistics roster before) z p d
  have capped : (c.maximumFor (c.plans status statistics roster before) z p).get d ≤
      p.maxCapacity.get d := by
    rw [maximumFor, Holdings.get_maximumFor]
    exact Nat.min_le_left _ _
  have holds : (c.lastEnforced.get z).get d = p.current.get d := by
    rw [grounded z p turn.policy_eq]
  generalize (c.verdict status statistics roster (c.plans status statistics roster before)
    z p).plan p.current = plan at bounded ⊢
  constructor
  · intro o q found
    rw [holdings_set, Holdings.most_withPlan]
    by_cases same : o = z
    · subst same
      cases Option.some.inj (found.symm.trans turn.policy_eq)
      rw [if_pos rfl]
      refine Nat.max_le.mpr ⟨holds.trans_le within, ?_⟩
      omega
    · rw [if_neg same]
      exact ceiled.each o q found
  · rw [holdings_set]
    refine Holdings.sum_most_withPlan_le (h := c.holdings (c.plans status statistics roster before))
      nodup_zoneSets turn.mem_zoneSets turn.get?_plans p.maxCapacity ceiled.total ?_
    rcases bounded with same | ⟨-, bounded⟩
    · exact .inl (same.trans_eq holds.symm)
    · rcases uncapped with full | uncapped
      · exact .inl ((bounded.trans (capped.trans full)).trans_eq holds.symm)
      · refine .inr ⟨bounded, fun o other => ?_⟩
        obtain ⟨mem, different⟩ := List.mem_filter.mp other
        exact uncapped o mem (by simpa using different)

theorem Floored.next (floored : c.Floored (c.plans status statistics roster before) d)
    (unraised : p.fault? = none → p.current.get d ≤ p.minCapacity.get d ∨
      ∀ o ∈ c.zoneSets, o ≠ z →
        p.minCapacity.get d ≤ (c.holdings (c.plans status statistics roster before)).least d o ∧
        ∀ plan, (c.plans status statistics roster before).get? o = some plan → plan ≠ 0) :
    c.Floored ((c.plans status statistics roster before).set z ((c.verdict status statistics roster
      (c.plans status statistics roster before) z p).plan p.current)) d := by
  have within := floored.each z p turn.policy_eq
  rw [least_eq_current grounded turn] at within
  have bounded := le_plan c status statistics roster (c.plans status statistics roster before) z p d
  have raised : p.minCapacity.get d ≤
      (c.minimumFor (c.plans status statistics roster before) z p).get d := by
    rw [minimumFor, Holdings.get_minimumFor]
    exact Nat.le_max_left _ _
  have holds : (c.lastEnforced.get z).get d = p.current.get d := by
    rw [grounded z p turn.policy_eq]
  generalize (c.verdict status statistics roster (c.plans status statistics roster before)
    z p).plan p.current = plan at bounded ⊢
  constructor
  · intro o q found
    rw [holdings_set, Holdings.least_withPlan]
    by_cases same : o = z
    · subst same
      cases Option.some.inj (found.symm.trans turn.policy_eq)
      rw [if_pos rfl]
      refine Nat.le_min.mpr ⟨within.trans_eq holds.symm, ?_⟩
      omega
    · rw [if_neg same]
      exact floored.each o q found
  · rw [holdings_set]
    refine Holdings.le_sum_least_withPlan (h := c.holdings (c.plans status statistics roster before))
      nodup_zoneSets turn.mem_zoneSets turn.get?_plans p.minCapacity floored.total ?_
    rcases bounded with same | ⟨sound, bounded⟩
    · exact .inl (holds.trans_le same)
    · rcases unraised sound with full | unraised
      · exact .inl (holds.trans_le (full.trans (raised.trans bounded)))
      · refine .inr ⟨bounded, fun o other => ?_⟩
        obtain ⟨mem, different⟩ := List.mem_filter.mp other
        exact unraised o mem (by simpa using different)

end

/-! ## All turns -/

/-- The ceiling is kept throughout a cycle in which no maximum of a zone set that may still grow caps
another. -/
theorem ceiled_plans (grounded : c.Grounded) (start : c.Ceiled .empty d)
    (uncapped : ∀ planned z p, c.policies[z]? = some p → c.Ceiled planned d →
      p.maxCapacity.get d ≤ p.current.get d ∨
      ∀ o ∈ c.zoneSets, o ≠ z → (c.holdings planned).most d o ≤ p.maxCapacity.get d)
    {decided : List (ZoneSet × Policy)} (inTurn : decided <+: c.policies.toList) :
    c.Ceiled (c.plans status statistics roster decided) d := by
  refine plans_induction (P := fun planned => c.Ceiled planned d) start ?_ inTurn
  intro before z p turn ceiled
  exact ceiled.next grounded turn (uncapped _ z p turn.policy_eq ceiled)

/-- The zone sets of a cycle share one maximum, and start within it and within the total. -/
structure Level (c : Cycle) (most : Capacity) : Prop where
  grounded : c.Grounded
  shared : ∀ (z : ZoneSet) (p : Policy), c.policies[z]? = some p → p.maxCapacity = most
  within : ∀ (z : ZoneSet) (p : Policy), c.policies[z]? = some p → p.current ≤ most
  total : ∀ d, c.lastEnforced.sumOver c.zoneSets d ≤ c.totalMax.get d

/-- The maximum of one zone set is that of every other, which the other keeps to. -/
theorem Level.ceiled {most : Capacity} (level : c.Level most) {decided : List (ZoneSet × Policy)}
    (inTurn : decided <+: c.policies.toList) (d : String) :
    c.Ceiled (c.plans status statistics roster decided) d := by
  have start : c.Ceiled .empty d := by
    refine ceiled_empty (fun z p found => ?_) (level.total d)
    rw [← level.grounded z p found, level.shared z p found]
    exact level.within z p found d
  refine ceiled_plans level.grounded start (fun planned z p found ceiled => .inr ?_) inTurn
  intro o mem _
  obtain ⟨q, other⟩ := mem_zoneSets.mp mem
  rw [level.shared z p found, ← level.shared o q other]
  exact ceiled.each o q other

/-- A plan over the floor of a zone set whose minimum is not zero is no plan of nothing. -/
theorem Floored.plan_ne_zero (floored : ∀ d, c.Floored planned d) {o : ZoneSet} {q : Policy}
    (found : c.policies[o]? = some q) (some : q.minCapacity ≠ 0) (plan : Capacity)
    (made : planned.get? o = .some plan) : plan ≠ 0 := by
  rintro rfl
  refine some (Capacity.ext fun d => ?_)
  have least := (floored d).each o q found
  rw [holdings, Holdings.least] at least
  simpa [made] using least

/-- The floor is kept throughout a cycle in which no minimum of a zone set that may still shrink
raises another, and none of the minima is zero if any policy is in order. -/
theorem floored_plans (grounded : c.Grounded) (start : ∀ d, c.Floored .empty d)
    (positive : ∀ (z : ZoneSet) (p : Policy), c.policies[z]? = some p → p.fault? = none →
      ∀ (o : ZoneSet) (q : Policy), c.policies[o]? = some q → q.minCapacity ≠ 0)
    (unraised : ∀ (z : ZoneSet) (p : Policy), c.policies[z]? = some p →
      ∀ d, p.current.get d ≤ p.minCapacity.get d ∨ ∀ (o : ZoneSet) (q : Policy),
        c.policies[o]? = some q → o ≠ z → p.minCapacity.get d ≤ q.minCapacity.get d)
    {decided : List (ZoneSet × Policy)} (inTurn : decided <+: c.policies.toList) (d : String) :
    c.Floored (c.plans status statistics roster decided) d := by
  revert d
  refine plans_induction (P := fun planned => ∀ d, c.Floored planned d) start ?_ inTurn
  intro before z p turn floored d
  refine (floored d).next grounded turn fun sound => ?_
  refine (unraised z p turn.policy_eq d).imp id fun lower o mem different => ?_
  obtain ⟨q, found⟩ := mem_zoneSets.mp mem
  exact ⟨(lower o q found different).trans ((floored d).each o q found),
    Floored.plan_ne_zero floored found (positive z p turn.policy_eq sound o q found)⟩

/-! ## Carrying out the plans -/

/-- For every zone set, either what it held or what it planned. -/
def Settles (c : Cycle) (planned a : Allocation) : Prop :=
  ∀ z ∈ c.zoneSets, a.get z = c.lastEnforced.get z ∨ a.get z = planned.get z

section
variable {a : Allocation} (settles : c.Settles planned a)
include settles

theorem Ceiled.settled (ceiled : c.Ceiled planned d) :
    (∀ z p, c.policies[z]? = some p → (a.get z).get d ≤ p.maxCapacity.get d) ∧
      a.sumOver c.zoneSets d ≤ c.totalMax.get d := by
  have below : ∀ z ∈ c.zoneSets, (a.get z).get d ≤ (c.holdings planned).most d z := by
    intro z mem
    rcases settles z mem with held | plan
    · rw [held]
      exact Nat.le_max_left _ _
    · rw [plan]
      exact Nat.le_max_right _ _
  refine ⟨fun z p found => ?_, ?_⟩
  · exact (below z (mem_zoneSets.mpr ⟨p, found⟩)).trans (ceiled.each z p found)
  · exact (Finset.sum_le_sum fun z mem => below z (List.mem_toFinset.mp mem)).trans ceiled.total

theorem Floored.settled (decided : ∀ z ∈ c.zoneSets, ∃ plan, planned.get? z = some plan)
    (floored : c.Floored planned d) :
    (∀ z p, c.policies[z]? = some p → p.minCapacity.get d ≤ (a.get z).get d) ∧
      c.totalMin.get d ≤ a.sumOver c.zoneSets d := by
  have above : ∀ z ∈ c.zoneSets, (c.holdings planned).least d z ≤ (a.get z).get d := by
    intro z mem
    obtain ⟨plan, made⟩ := decided z mem
    have least : (c.holdings planned).least d z =
        min ((c.lastEnforced.get z).get d) ((planned.get z).get d) := by
      simp [Holdings.least, holdings, made, Allocation.get_eq planned]
    rw [least]
    rcases settles z mem with held | plan
    · rw [held]
      exact Nat.min_le_left _ _
    · rw [plan]
      exact Nat.min_le_right _ _
  refine ⟨fun z p found => ?_, ?_⟩
  · exact (floored.each z p found).trans (above z (mem_zoneSets.mpr ⟨p, found⟩))
  · exact floored.total.trans (Finset.sum_le_sum fun z mem => above z (List.mem_toFinset.mp mem))

end

end Autoscaler.Cycle
