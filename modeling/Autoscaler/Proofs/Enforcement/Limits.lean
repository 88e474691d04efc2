import Autoscaler.Proofs.Enforcement.Totals
import Autoscaler.Proofs.Policy

/-!
# Zone sets with limits of their own

The zone sets of a cycle may have different policies. The bounds of one zone set take the others for
kept to its own limits, not to theirs. A cycle that starts within its totals plans to stay within
them when the limits agree as far as they can make a difference: no zone set that has room between
its limits has a maximum that another can exceed, and none that can exceed its minimum has a minimum
above another's (`LimitsAgree.keepsTotals`).
-/

namespace Autoscaler

/-- The limits of one zone set. -/
def Policy.limits (p : Policy) : Capacity × Capacity := (p.minCapacity, p.maxCapacity)

namespace Cycle

/-- The least that the policy of a zone set lets it hold. -/
def lower (c : Cycle) (z : ZoneSet) : Capacity := (c.policies[z]?.map Policy.minCapacity).getD 0

/-- The most that the policy of a zone set lets it hold. -/
def upper (c : Cycle) (z : ZoneSet) : Capacity := (c.policies[z]?.map Policy.maxCapacity).getD 0

/-- The most of a dimension that a zone set can hold within some total: its maximum, unless the
minima of the others leave less of the largest amount. -/
def reach (c : Cycle) (d : String) (z : ZoneSet) : Nat :=
  min ((c.upper z).get d) (maxAmount - ∑ o ∈ c.zoneSets.toFinset.erase z, (c.lower o).get d)

/-- Limits of zone sets that differ only where it makes no difference to a total. -/
structure LimitsAgree (c : Cycle) : Prop where
  most : ∀ z ∈ c.zoneSets, ∀ o ∈ c.zoneSets, o ≠ z → ∀ d,
    (c.lower z).get d < (c.upper z).get d → c.reach d o ≤ (c.upper z).get d
  least : ∀ z ∈ c.zoneSets, ∀ o ∈ c.zoneSets, o ≠ z → ∀ d,
    (c.lower z).get d < c.reach d z → (c.lower z).get d ≤ (c.lower o).get d

/-- A cycle that starts in order: from policies without fault, whose zone sets hold what they say, and
within all limits. -/
structure Settled (c : Cycle) : Prop where
  sound : ∀ (z : ZoneSet) (p : Policy), c.policies[z]? = some p → p.fault? = none
  grounded : c.Grounded
  least : ∀ (z : ZoneSet) (p : Policy), c.policies[z]? = some p → p.minCapacity ≤ p.current
  most : ∀ (z : ZoneSet) (p : Policy), c.policies[z]? = some p → p.current ≤ p.maxCapacity
  floor : ∀ d, c.totalMin.get d ≤ c.lastEnforced.sumOver c.zoneSets d
  ceiling : ∀ d, c.lastEnforced.sumOver c.zoneSets d ≤ c.totalMax.get d

/-- Whatever an engine, statistics and roster make of a cycle, the plans stay within its totals. -/
def KeepsTotals (c : Cycle) : Prop :=
  ∀ (e : Engine) (statistics : Snapshot) (roster : Roster) (now : Nat) (d : String),
    let planned := (e.enforceCycle c statistics roster now).2.planned
    c.totalMin.get d ≤ planned.sumOver c.zoneSets d ∧
      planned.sumOver c.zoneSets d ≤ c.totalMax.get d

/-- The same zone sets with the same limits each, whatever else the policies say. -/
def SameLimits (c other : Cycle) : Prop :=
  ∀ z : ZoneSet, other.policies[z]?.map Policy.limits = c.policies[z]?.map Policy.limits

variable {c : Cycle} {z : ZoneSet} {p : Policy} {d : String}

theorem lower_eq (found : c.policies[z]? = some p) : c.lower z = p.minCapacity := by
  simp [lower, found]

theorem upper_eq (found : c.policies[z]? = some p) : c.upper z = p.maxCapacity := by
  simp [upper, found]

namespace SameLimits

variable {other : Cycle} (same : c.SameLimits other)
include same

theorem lower (z : ZoneSet) : other.lower z = c.lower z := by
  have minima := congrArg (Option.map Prod.fst) (same z)
  rw [Option.map_map, Option.map_map] at minima
  exact congrArg (Option.getD · 0) minima

theorem upper (z : ZoneSet) : other.upper z = c.upper z := by
  have maxima := congrArg (Option.map Prod.snd) (same z)
  rw [Option.map_map, Option.map_map] at maxima
  exact congrArg (Option.getD · 0) maxima

theorem mem_zoneSets {z : ZoneSet} : z ∈ other.zoneSets ↔ z ∈ c.zoneSets := by
  have present := congrArg Option.isSome (same z)
  rw [Option.isSome_map, Option.isSome_map] at present
  rw [Cycle.mem_zoneSets, Cycle.mem_zoneSets, ← Option.isSome_iff_exists, present,
    Option.isSome_iff_exists]

theorem reach (d : String) (z : ZoneSet) : other.reach d z = c.reach d z := by
  have zones : other.zoneSets.toFinset = c.zoneSets.toFinset := by
    ext o
    rw [List.mem_toFinset, List.mem_toFinset, same.mem_zoneSets]
  simp only [Cycle.reach, same.lower, same.upper, zones]

theorem limitsAgree (agree : c.LimitsAgree) : other.LimitsAgree := by
  constructor
  · intro z mem o listed different d room
    rw [same.lower, same.upper] at room
    rw [same.reach, same.upper]
    exact agree.most z (same.mem_zoneSets.mp mem) o (same.mem_zoneSets.mp listed) different d room
  · intro z mem o listed different d above
    rw [same.lower, same.reach] at above
    rw [same.lower, same.lower]
    exact agree.least z (same.mem_zoneSets.mp mem) o (same.mem_zoneSets.mp listed) different d above

end SameLimits

theorem le_reach (mem : z ∈ c.zoneSets) {f : ZoneSet → Nat}
    (above : ∀ o ∈ c.zoneSets, (c.lower o).get d ≤ f o) (most : f z ≤ (c.upper z).get d)
    (total : ∑ o ∈ c.zoneSets.toFinset, f o ≤ maxAmount) : f z ≤ c.reach d z := by
  rw [← Finset.add_sum_erase _ _ (List.mem_toFinset.mpr mem)] at total
  have others : ∑ o ∈ c.zoneSets.toFinset.erase z, (c.lower o).get d ≤
      ∑ o ∈ c.zoneSets.toFinset.erase z, f o :=
    Finset.sum_le_sum fun o other => above o (List.mem_toFinset.mp (Finset.mem_of_mem_erase other))
  rw [reach]
  omega

namespace Settled

variable (settled : c.Settled)
include settled

theorem lower_le (mem : z ∈ c.zoneSets) : c.lower z ≤ c.lastEnforced.get z := by
  obtain ⟨p, found⟩ := mem_zoneSets.mp mem
  rw [lower_eq found, ← settled.grounded z p found]
  exact settled.least z p found

theorem le_upper (mem : z ∈ c.zoneSets) : c.lastEnforced.get z ≤ c.upper z := by
  obtain ⟨p, found⟩ := mem_zoneSets.mp mem
  rw [upper_eq found, ← settled.grounded z p found]
  exact settled.most z p found

theorem ceiled_empty (d : String) : c.Ceiled .empty d := by
  refine Cycle.ceiled_empty (fun z p found => ?_) (settled.ceiling d)
  rw [← settled.grounded z p found]
  exact settled.most z p found d

theorem floored_empty (d : String) : c.Floored .empty d := by
  refine Cycle.floored_empty (fun z p found => ?_) (settled.floor d)
  rw [← settled.grounded z p found]
  exact settled.least z p found d

theorem holds_le_reach (mem : z ∈ c.zoneSets) : (c.lastEnforced.get z).get d ≤ c.reach d z :=
  le_reach (f := fun o => (c.lastEnforced.get o).get d) mem
    (fun _ other => settled.lower_le other d) (settled.le_upper mem d)
    ((settled.ceiling d).trans (c.totalMax.get_le d))

theorem sum_lower_le (z : ZoneSet) (d : String) :
    ∑ o ∈ c.zoneSets.toFinset.erase z, (c.lower o).get d ≤ maxAmount := by
  have below : ∑ o ∈ c.zoneSets.toFinset.erase z, (c.lower o).get d ≤
      ∑ o ∈ c.zoneSets.toFinset, (c.lower o).get d :=
    Finset.sum_le_sum_of_subset (Finset.erase_subset _ _)
  refine below.trans ((Finset.sum_le_sum fun o mem => ?_).trans ((settled.ceiling d).trans
    (c.totalMax.get_le d)))
  exact settled.lower_le (List.mem_toFinset.mp mem) d

/-- No plan of a cycle under its ceiling puts a zone set beyond its reach. -/
theorem most_le_reach {planned : Allocation} (ceiled : c.Ceiled planned d) (mem : z ∈ c.zoneSets) :
    (c.holdings planned).most d z ≤ c.reach d z := by
  obtain ⟨p, found⟩ := mem_zoneSets.mp mem
  refine le_reach mem (fun o other => ?_) ?_ (ceiled.total.trans (c.totalMax.get_le d))
  · exact (settled.lower_le other d).trans (Nat.le_max_left _ _)
  · rw [upper_eq found]
    exact ceiled.each z p found

end Settled

namespace LimitsAgree

variable {status : Cooldown.Status} {statistics : Snapshot} {roster : Roster}
  (agree : c.LimitsAgree) (settled : c.Settled)
include agree settled

theorem ceiled (d : String) : c.Ceiled (c.plans status statistics roster c.policies.toList) d := by
  refine ceiled_plans settled.grounded (settled.ceiled_empty d) ?_ (List.prefix_refl _)
  intro planned z p found ceiled
  have mem := mem_zoneSets.mpr ⟨p, found⟩
  by_cases room : (c.lower z).get d < (c.upper z).get d
  · refine .inr fun o other different => ?_
    rw [← upper_eq found]
    exact (settled.most_le_reach ceiled other).trans (agree.most z mem o other different d room)
  · have least := settled.least z p found d
    rw [lower_eq found, upper_eq found] at room
    exact .inl (by omega)

theorem floored (d : String) : c.Floored (c.plans status statistics roster c.policies.toList) d := by
  refine floored_plans settled.grounded settled.floored_empty ?_ ?_ (List.prefix_refl _) d
  · intro _ _ _ _ o q other
    exact (Policy.fault?_eq_none.mp (settled.sound o q other)).least
  · intro z p found d
    have mem := mem_zoneSets.mpr ⟨p, found⟩
    by_cases above : (c.lower z).get d < c.reach d z
    · refine .inr fun o q other different => ?_
      rw [← lower_eq found, ← lower_eq other]
      exact agree.least z mem o (mem_zoneSets.mpr ⟨q, other⟩) different d above
    -- A zone set that cannot exceed its minimum has nothing to give back.
    · have held := settled.holds_le_reach mem (d := d)
      rw [← settled.grounded z p found] at held
      rw [lower_eq found] at above
      exact .inl (held.trans (Nat.le_of_not_lt above))

/-- Where the limits agree, a cycle that starts in order plans to stay within its totals. -/
theorem keepsTotals : c.KeepsTotals := by
  intro e statistics roster now d
  simp only
  rw [Engine.planned_enforceCycle]
  have carried : c.Settles (c.plans (e.statusAt roster now) statistics roster c.policies.toList)
      (c.plans (e.statusAt roster now) statistics roster c.policies.toList) :=
    fun _ _ => .inr rfl
  constructor
  · exact (Floored.settled carried (fun _ mem => exists_plan _ _ _ mem) (agree.floored settled d)).2
  · exact (Ceiled.settled carried (agree.ceiled settled d)).2

end LimitsAgree

end Cycle

end Autoscaler
