import Autoscaler.Proofs.Enforcement.Undivided
import Autoscaler.Proofs.Settings.Resolution

/-!
# Totals that are left out

Settings that leave out the totals of a workload mean the bounds of one zone set times their number.
As long as that fits, such totals never bind: every zone set keeps the bounds of its policy, whatever
was enforced or planned, and is decided on as if there were no others (`defaults_never_bind`).
-/

namespace Autoscaler

namespace Workload

/-- The totals leave each zone set the bounds of the policy. -/
structure Slack (w : Workload) : Prop where
  distinct : w.zoneSets.Nodup
  sound : w.policy.fault? = none
  room : ∀ d, w.zoneSets.length * w.policy.maxCapacity.get d ≤ w.totalMax.get d
  covered : ∀ d, w.totalMin.get d ≤ w.zoneSets.length * w.policy.minCapacity.get d

/-- A cycle of a workload that starts from any capacities, whatever was enforced last. -/
def cycleFrom (w : Workload) (currents held : Allocation) : Cycle :=
  { w.cycle currents with lastEnforced := held }

variable {w : Workload} {currents held : Allocation} {z : ZoneSet}

theorem length_zoneSets_cycleFrom (distinct : w.zoneSets.Nodup) (currents held : Allocation) :
    (w.cycleFrom currents held).zoneSets.length = w.zoneSets.length := by
  -- A cycle lists its zone sets by its map, each of them once.
  have members (o : ZoneSet) : o ∈ (w.cycle currents).zoneSets ↔ o ∈ w.zoneSets := mem_zoneSets_cycle
  exact ((List.perm_ext_iff_of_nodup Cycle.nodup_zoneSets distinct).mpr members).length_eq

theorem policy_eq_of_turn {p : Policy} {before : List (ZoneSet × Policy)}
    (turn : (w.cycleFrom currents held).Turn before z p) :
    z ∈ w.zoneSets ∧ p = w.policy.withCurrent (currents.get z) := by
  have alike : (w.cycle currents).Turn before z p := turn
  exact ⟨mem_zoneSets_cycle.mp alike.mem_zoneSets, policy_eq alike.policy_eq⟩

namespace Slack

variable (slack : w.Slack)
include slack

theorem maximumFor_eq (mem : z ∈ w.zoneSets) (enforced planned : Allocation) :
    (⟨w.zoneSets, enforced, planned⟩ : Holdings).maximumFor z w.totalMax w.policy.maxCapacity =
      w.policy.maxCapacity :=
  Holdings.maximumFor_eq slack.distinct mem slack.room

theorem minimumFor_eq (mem : z ∈ w.zoneSets) (enforced planned : Allocation) :
    (⟨w.zoneSets, enforced, planned⟩ : Holdings).minimumFor z w.totalMin w.policy.minCapacity =
      w.policy.minCapacity :=
  Holdings.minimumFor_eq slack.distinct mem slack.covered

/-- The bounds of a zone set in its turn are those of its policy. -/
theorem bounds_cycleFrom {p : Policy} {before : List (ZoneSet × Policy)}
    (turn : (w.cycleFrom currents held).Turn before z p) (planned : Allocation) :
    (w.cycleFrom currents held).maximumFor planned z p = p.maxCapacity ∧
      (w.cycleFrom currents held).minimumFor planned z p = p.minCapacity := by
  have length := length_zoneSets_cycleFrom slack.distinct currents held
  obtain ⟨-, rfl⟩ := policy_eq_of_turn turn
  constructor
  · refine Holdings.maximumFor_eq Cycle.nodup_zoneSets turn.mem_zoneSets fun d => ?_
    rw [Cycle.holdings, length]
    exact slack.room d
  · refine Holdings.minimumFor_eq Cycle.nodup_zoneSets turn.mem_zoneSets fun d => ?_
    rw [Cycle.holdings, length]
    exact slack.covered d

variable {statistics : Snapshot} {roster : Roster} {now : Nat} {e f : Engine}

theorem no_conflict (o : ZoneSet) (minimum maximum : Capacity) (d : String) :
    (z, .error (.configurationConflict o minimum maximum d)) ∉
      (e.enforceCycle (w.cycleFrom currents held) statistics roster now).1 := by
  intro reported
  obtain ⟨before, p, turn, conflict⟩ := Engine.mem_enforceCycle.mp reported
  have crossed := Cycle.not_le_of_verdict_eq_conflict conflict.symm
  obtain ⟨most, least⟩ := slack.bounds_cycleFrom turn
    ((w.cycleFrom currents held).plans (e.statusAt roster now) statistics roster before)
  rw [most, least, (policy_eq_of_turn turn).2] at crossed
  exact crossed (Policy.fault?_eq_none.mp slack.sound).least_le_most

theorem verdict_cycleFrom (same : f.gate = e.gate) {before : List (ZoneSet × Policy)} {p : Policy}
    (turn : (w.cycleFrom currents held).Turn before z p) (planned : Allocation) :
    (w.cycleFrom currents held).verdict (e.statusAt roster now) statistics roster planned z p =
      (f.enforce p statistics roster now).1 := by
  obtain ⟨most, least⟩ := slack.bounds_cycleFrom turn planned
  rw [Cycle.verdict_of_own_bounds most least, Engine.enforce, Engine.observed, same]
  rfl

/-- Each zone set gets the verdict that an engine with the same cooldown gives on its policy alone. -/
theorem mem_enforceCycle (same : f.gate = e.gate) {v : Verdict} :
    (z, v) ∈ (e.enforceCycle (w.cycleFrom currents held) statistics roster now).1 ↔
      z ∈ w.zoneSets ∧
        v = (f.enforce (w.policy.withCurrent (currents.get z)) statistics roster now).1 := by
  constructor
  · intro listed
    obtain ⟨before, p, turn, verdict⟩ := Engine.mem_enforceCycle.mp listed
    obtain ⟨mem, policy⟩ := policy_eq_of_turn turn
    exact ⟨mem, by rw [verdict, slack.verdict_cycleFrom same turn, policy]⟩
  · rintro ⟨mem, verdict⟩
    obtain ⟨before, turn⟩ := Cycle.exists_turn (c := w.cycleFrom currents held)
      ((getElem?_policies w currents z).trans (if_pos mem))
    rw [Engine.mem_enforceCycle_of_turn turn, verdict, slack.verdict_cycleFrom same turn]

end Slack

end Workload

namespace WorkloadSettings

variable {s : WorkloadSettings} {w : Workload}

theorem slack_of_resolve (resolved : s.resolve = .ok w) (noMax : s.totalMax = none)
    (noMin : s.totalMin = none)
    (fits : ∀ d, w.zoneSets.length * w.policy.maxCapacity.get d ≤ maxAmount) : w.Slack := by
  have described := describes_of_resolve resolved
  have distinct : w.zoneSets.Nodup := by
    refine described.zoneSets.2.1.imp fun {a b} before same => ?_
    rw [same, Std.ReflOrd.compare_self] at before
    cases before
  have most := described.totalMax
  have least := described.totalMin
  rw [noMax] at most
  rw [noMin] at least
  refine ⟨distinct, described.policy.1, fun d => ?_, fun d => ?_⟩
  · rw [most d]
    exact Nat.le_min.mpr ⟨Nat.le_refl _, fits d⟩
  · rw [least d]
    exact Nat.min_le_left _ _

/-- Totals that settings leave out never bind while they fit. Every zone set has the bounds of its
policy, whatever was enforced and planned. In a cycle no bounds conflict, and each zone set gets the
verdict that an engine with the same cooldown gives on its policy alone. -/
theorem defaults_never_bind (resolved : s.resolve = .ok w) (noMax : s.totalMax = none)
    (noMin : s.totalMin = none)
    (fits : ∀ d, w.zoneSets.length * w.policy.maxCapacity.get d ≤ maxAmount) :
    (∀ (enforced planned : Allocation), ∀ z ∈ w.zoneSets,
      (⟨w.zoneSets, enforced, planned⟩ : Holdings).maximumFor z w.totalMax w.policy.maxCapacity =
          w.policy.maxCapacity ∧
        (⟨w.zoneSets, enforced, planned⟩ : Holdings).minimumFor z w.totalMin w.policy.minCapacity =
          w.policy.minCapacity) ∧
    ∀ (e : Engine) (currents held : Allocation) (statistics : Snapshot) (roster : Roster) (now : Nat),
      let verdicts := (e.enforceCycle (w.cycleFrom currents held) statistics roster now).1
      (∀ z o minimum maximum d, (z, .error (.configurationConflict o minimum maximum d)) ∉ verdicts) ∧
        ∀ f : Engine, f.gate = e.gate → ∀ z v, (z, v) ∈ verdicts ↔ z ∈ w.zoneSets ∧
          v = (f.enforce (w.policy.withCurrent (currents.get z)) statistics roster now).1 := by
  have slack := slack_of_resolve resolved noMax noMin fits
  constructor
  · intro enforced planned z mem
    exact ⟨slack.maximumFor_eq mem enforced planned, slack.minimumFor_eq mem enforced planned⟩
  · intro e currents held statistics roster now
    exact ⟨fun _ => slack.no_conflict, fun f same z v => slack.mem_enforceCycle same⟩

/-- The settings to start from without totals, and with a zone set that is named twice. -/
def untotalled : WorkloadSettings where
  id := "db"
  zoneSets := some ["zone-b", "zone-a", "zone-b"]
  totalMax := none
  totalMin := none
  cooldown := none
  policy := ((Settings.starter "db").workloads.head (List.cons_ne_nil _ _)).policy

/-- One zone set may grow, although the other was last seen with more than both may hold. -/
theorem defaults_never_bind_untotalled :
    let w := Scheduler.starter "db"
    let a : ZoneSet := .ofPieces ["zone-a"] (by decide) (by decide)
    let b : ZoneSet := .ofPieces ["zone-b"] (by decide) (by decide)
    let held : Allocation := .ofList [(b, .single "memory" 9999)]
    let e := Engine.new "db" .default
    untotalled.resolve = .ok w ∧ (∀ d, w.zoneSets.length * w.policy.maxCapacity.get d ≤ maxAmount) ∧
      (⟨w.zoneSets, held, .empty⟩ : Holdings).maximumFor a w.totalMax w.policy.maxCapacity =
        w.policy.maxCapacity ∧
      (a, .ok (.applied (.single "memory" 1024) (.single "memory" 1536) .up)) ∈
        (e.enforceCycle (w.cycleFrom w.initial held) Scheduler.observation.statistics
          Scheduler.observation.roster 0).1 := by
  intro w a b held e
  have resolved : untotalled.resolve = .ok w := by decide +kernel
  have fits : ∀ d, w.zoneSets.length * w.policy.maxCapacity.get d ≤ maxAmount := by
    intro d
    show 2 * (Capacity.single "memory" 2048).get d ≤ maxAmount
    rw [Capacity.get_single]
    split
    · decide
    · decide
  obtain ⟨bounds, cycles⟩ := defaults_never_bind resolved rfl rfl fits
  refine ⟨resolved, fits, (bounds held .empty a (by decide)).1, ?_⟩
  refine ((cycles e w.initial held _ _ 0).2 e rfl a _).mpr ⟨by decide, ?_⟩
  decide +kernel

end WorkloadSettings

end Autoscaler
