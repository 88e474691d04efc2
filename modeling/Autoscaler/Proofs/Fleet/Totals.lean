import Autoscaler.Proofs.Fleet.Provisioning
import Autoscaler.Proofs.Policy

/-!
# Totals of a run

All zone sets of a workload share one policy, so that no maximum of one caps what another holds and
no minimum raises it. A workload that starts under its ceiling therefore stays under it, and one that
starts over its floor stays over it: in every run of the scheduler, and in each tick after every
single call, whether or not the calls succeed. Started between both, the bounds of a zone set always
lie on either side of what it holds, and never conflict.
-/

namespace Autoscaler

namespace Workload

/-- No zone set holds more than its maximum, and all of them together no more than the total. -/
structure UnderCeiling (w : Workload) (a : Allocation) : Prop where
  each : ∀ z ∈ w.zoneSets, a.get z ≤ w.policy.maxCapacity
  total : ∀ d, a.sumOver w.zoneSets d ≤ w.totalMax.get d

/-- No zone set holds less than its minimum, and all of them together no less than the total. -/
structure OverFloor (w : Workload) (a : Allocation) : Prop where
  each : ∀ z ∈ w.zoneSets, w.policy.minCapacity ≤ a.get z
  total : ∀ d, w.totalMin.get d ≤ a.sumOver w.zoneSets d

variable {w : Workload} {held a : Allocation} {status : Cooldown.Status} {statistics : Snapshot}
  {roster : Roster} {decided : List (ZoneSet × Policy)}

theorem underCeiling_initial (each : w.policy.current ≤ w.policy.maxCapacity)
    (total : ∀ d, w.initial.sumOver w.zoneSets d ≤ w.totalMax.get d) : w.UnderCeiling w.initial := by
  refine ⟨fun z mem => ?_, total⟩
  rw [get_initial mem]
  exact each

theorem overFloor_initial (each : w.policy.minCapacity ≤ w.policy.current)
    (total : ∀ d, w.totalMin.get d ≤ w.initial.sumOver w.zoneSets d) : w.OverFloor w.initial := by
  refine ⟨fun z mem => ?_, total⟩
  rw [get_initial mem]
  exact each

/-- Every distinct zone set starts with the capacity of the policy. -/
theorem sumOver_initial (w : Workload) (d : String) :
    w.initial.sumOver w.zoneSets d = w.zoneSets.toFinset.card * w.policy.current.get d := by
  have same : ∀ z ∈ w.zoneSets.toFinset, (w.initial.get z).get d = w.policy.current.get d := by
    intro z mem
    rw [get_initial (List.mem_toFinset.mp mem)]
  exact Finset.sum_const_nat same

theorem exists_zoneSet {z : ZoneSet} {p : Policy} (found : (w.cycle held).policies[z]? = some p) :
    z ∈ w.zoneSets ∧ p = w.policy.withCurrent (held.get z) :=
  ⟨mem_zoneSets_cycle.mp (Cycle.mem_zoneSets.mpr ⟨p, found⟩), policy_eq found⟩

/-! ## One cycle -/

/-- A property of allocations is kept however many of the plans of a cycle are carried out. -/
def Keeps (w : Workload) (P : Allocation → Prop) : Prop :=
  ∀ held a status statistics roster, P held → (w.cycle held).Settles ((w.cycle held).plans status
    statistics roster (w.cycle held).policies.toList) a → P a

theorem UnderCeiling.level (under : w.UnderCeiling held) : (w.cycle held).Level w.policy.maxCapacity where
  grounded := grounded_cycle
  shared z p found := by
    rw [policy_eq found]
    rfl
  within z p found := by
    obtain ⟨mem, rfl⟩ := exists_zoneSet found
    exact under.each z mem
  total d := by
    rw [sumOver_zoneSets_cycle]
    exact under.total d

theorem UnderCeiling.ceiled (under : w.UnderCeiling held)
    (inTurn : decided <+: (w.cycle held).policies.toList) (d : String) :
    (w.cycle held).Ceiled ((w.cycle held).plans status statistics roster decided) d :=
  under.level.ceiled inTurn d

theorem OverFloor.floored (above : w.OverFloor held)
    (inTurn : decided <+: (w.cycle held).policies.toList) (d : String) :
    (w.cycle held).Floored ((w.cycle held).plans status statistics roster decided) d := by
  have start : ∀ d, (w.cycle held).Floored .empty d := by
    intro d
    refine Cycle.floored_empty (fun z p found => ?_) ?_
    · obtain ⟨mem, rfl⟩ := exists_zoneSet found
      exact above.each z mem d
    · rw [sumOver_zoneSets_cycle]
      exact above.total d
  refine Cycle.floored_plans grounded_cycle start ?_ ?_ inTurn d
  · intro z p found sound o q other
    have least := (Policy.fault?_eq_none.mp sound).least
    rw [policy_eq found] at least
    rw [policy_eq other]
    exact least
  · intro z p found d
    refine .inr fun o q other _ => ?_
    rw [policy_eq found, policy_eq other]
    exact Nat.le_refl _

/-- The ceiling is kept however many of the plans of a cycle are carried out. -/
theorem UnderCeiling.settled (under : w.UnderCeiling held)
    (settles : (w.cycle held).Settles ((w.cycle held).plans status statistics roster
      (w.cycle held).policies.toList) a) : w.UnderCeiling a := by
  have after := fun d => Cycle.Ceiled.settled settles (under.ceiled (List.prefix_refl _) d)
  refine ⟨fun z mem d => ?_, fun d => ?_⟩
  · have listed : z ∈ (w.cycle held).zoneSets := mem_zoneSets_cycle.mpr mem
    obtain ⟨p, found⟩ := Cycle.mem_zoneSets.mp listed
    have within := (after d).1 z p found
    rw [policy_eq found] at within
    exact within
  · rw [← sumOver_zoneSets_cycle held]
    exact (after d).2

theorem OverFloor.settled (above : w.OverFloor held)
    (settles : (w.cycle held).Settles ((w.cycle held).plans status statistics roster
      (w.cycle held).policies.toList) a) : w.OverFloor a := by
  have after := fun d => Cycle.Floored.settled settles (fun _ mem => Cycle.exists_plan _ _ _ mem)
    (above.floored (List.prefix_refl _) d)
  refine ⟨fun z mem d => ?_, fun d => ?_⟩
  · have listed : z ∈ (w.cycle held).zoneSets := mem_zoneSets_cycle.mpr mem
    obtain ⟨p, found⟩ := Cycle.mem_zoneSets.mp listed
    have within := (after d).1 z p found
    rw [policy_eq found] at within
    exact within
  · rw [← sumOver_zoneSets_cycle held]
    exact (after d).2

section
variable {before : List (ZoneSet × Policy)} {z : ZoneSet} {p : Policy}
  (turn : (w.cycle held).Turn before z p)
include turn

theorem UnderCeiling.current_le (under : w.UnderCeiling held) : p.current ≤
    (w.cycle held).maximumFor ((w.cycle held).plans status statistics roster before) z p := by
  have inTurn : before <+: (w.cycle held).policies.toList := (List.prefix_append _ _).trans turn
  intro d
  exact Cycle.Ceiled.current_le grounded_cycle turn (under.ceiled inTurn d)

theorem OverFloor.le_current (above : w.OverFloor held) :
    (w.cycle held).minimumFor ((w.cycle held).plans status statistics roster before) z p ≤
      p.current := by
  have inTurn : before <+: (w.cycle held).policies.toList := (List.prefix_append _ _).trans turn
  intro d
  exact Cycle.Floored.le_current grounded_cycle turn (above.floored inTurn d)

end

end Workload

/-! ## Whole runs -/

namespace Scheduler

section
variable {before s : Scheduler} {w : Workload}

theorem add_eq_ok : before.add w = .ok s ↔ ∃ registry,
    before.registry.create w.id w.cooldown = .ok registry ∧
      s = ⟨registry, before.workloads.insert w.id w, before.lastEnforced.insert w.id w.initial⟩ := by
  cases created : before.registry.create w.id w.cooldown with
  | error fault => simp [add, created, bind, Except.bind]
  | ok registry => simp [add, created, bind, Except.bind, pure, Except.pure, eq_comm]

variable (added : before.add w = .ok s)
include added

theorem getElem?_workloads_add : s.workloads[w.id]? = some w := by
  obtain ⟨registry, -, rfl⟩ := add_eq_ok.mp added
  exact Std.ExtTreeMap.getElem?_insert_self

theorem held_add : s.held w.id = w.initial := by
  obtain ⟨registry, -, rfl⟩ := add_eq_ok.mp added
  rw [held, lastEnforced?, Std.ExtTreeMap.getElem?_insert_self, Option.getD_some]

omit added

/-- What is kept however many of the plans of a cycle are carried out is kept by the calls of a tick. -/
theorem held_afterCalls {P : Allocation → Prop} (keeps : w.Keeps P)
    (registered : s.workloads[w.id]? = some w) (holds : P (s.held w.id)) (world : Surroundings)
    (n : Nat) : P ((s.afterCalls world n).held w.id) := by
  obtain ⟨status, statistics, roster, settles⟩ := exists_settles_afterCalls registered world n
  exact keeps _ _ status statistics roster holds settles

theorem held_tick {P : Allocation → Prop} (keeps : w.Keeps P)
    (registered : s.workloads[w.id]? = some w) (holds : P (s.held w.id)) (world : Surroundings) :
    P ((s.tick world).2.2.held w.id) := by
  rw [← afterCalls_length]
  exact held_afterCalls keeps registered holds world _

theorem held_run {P : Allocation → Prop} (keeps : w.Keeps P)
    (registered : s.workloads[w.id]? = some w) (holds : P (s.held w.id)) (worlds : List Surroundings) :
    P ((s.run worlds).2.held w.id) := by
  refine (run_induction (P := fun t => t.workloads[w.id]? = some w ∧ P (t.held w.id)) ?_ worlds
    ⟨registered, holds⟩).2
  rintro t world ⟨registered, holds⟩
  exact ⟨by rw [workloads_tick, registered], held_tick keeps registered holds world⟩

include added in
/-- What holds of the initial allocation of a workload, and is kept however many of the plans of a
cycle are carried out, holds after every call of every tick. -/
theorem held_induction {P : Allocation → Prop} (start : P w.initial) (keeps : w.Keeps P)
    (worlds : List Surroundings) (world : Surroundings) (n : Nat) :
    P (((s.run worlds).2.afterCalls world n).held w.id) := by
  have registered := getElem?_workloads_add added
  refine held_afterCalls keeps ?_ (held_run keeps registered ?_ worlds) world n
  · rw [workloads_run, registered]
  · rw [held_add added]
    exact start

end

/-- A workload added under its ceiling stays under it after every call of every tick, whichever calls
succeed. -/
theorem underCeiling_afterCalls {before s : Scheduler} {w : Workload} (added : before.add w = .ok s)
    (each : w.policy.current ≤ w.policy.maxCapacity)
    (total : ∀ d, w.initial.sumOver w.zoneSets d ≤ w.totalMax.get d)
    (worlds : List Surroundings) (world : Surroundings) (n : Nat) :
    w.UnderCeiling (((s.run worlds).2.afterCalls world n).held w.id) := by
  refine held_induction added (Workload.underCeiling_initial each total) ?_ worlds world n
  intro held a status statistics roster under settles
  exact under.settled settles

/-- Two zone sets start at 1000 of memory each, and together may hold from 1500 to 2400. -/
def pair : Workload where
  id := "pair"
  zoneSets := [.ofPieces ["east"] (by decide) (by decide), .ofPieces ["west"] (by decide) (by decide)]
  totalMax := .single "memory" 2400
  totalMin := .single "memory" 1500
  cooldown := .default
  policy := {
    current := .single "memory" 1000
    rules := [⟨⟨"cpu", .avg, .ofMillis 300000, none, none⟩, .integer 20, .integer 80⟩]
    increaseStep := .single "memory" 300
    decreaseStep := .single "memory" 300
    maxCapacity := .single "memory" 2000
    minCapacity := .single "memory" 500 }

/-- A scheduler to which only the pair was added. -/
def withPair : Scheduler :=
  ⟨.set .empty "pair" pair.engine, Std.ExtTreeMap.insert ∅ "pair" pair,
    Std.ExtTreeMap.insert ∅ "pair" pair.initial⟩

/-- One instance reports a value, and only targets of the second zone set can be provisioned. -/
def reporting (value : Int64) : Surroundings where
  now := 0
  statistics _ := some (.ofList [(⟨"cpu", .avg, .ofMillis 300000, none, none⟩,
    ⟨.integer value, .ofList ["vm"]⟩)])
  roster _ := some (.ofList [("vm", "east")])
  provision := some fun _ z _ => z.text = "west"

theorem pair_total (d : String) : pair.totalMin.get d ≤ pair.initial.sumOver pair.zoneSets d ∧
    pair.initial.sumOver pair.zoneSets d ≤ pair.totalMax.get d := by
  have two : pair.zoneSets.toFinset.card = 2 := by decide
  rw [Workload.sumOver_initial, two]
  simp only [pair, Capacity.get_single]
  split
  · decide
  · decide

/-- The first zone set plans 1300 and does not get it; only 1100 is left to the second. -/
theorem underCeiling_afterCalls_pair :
    new.add pair = .ok withPair ∧ pair.policy.current ≤ pair.policy.maxCapacity ∧
    (∀ d, pair.initial.sumOver pair.zoneSets d ≤ pair.totalMax.get d) ∧
    pair.UnderCeiling (((withPair.run [reporting 95]).2.afterCalls (reporting 95) 1).held "pair") ∧
    ((withPair.run [reporting 95]).2.held "pair").total = .single "memory" 2100 := by
  have added : new.add pair = .ok withPair := by decide +kernel
  have each : pair.policy.current ≤ pair.policy.maxCapacity := by decide
  have total := fun d => (pair_total d).2
  exact ⟨added, each, total,
    underCeiling_afterCalls added each total [reporting 95] (reporting 95) 1, by decide +kernel⟩

/-- A workload added over its floor stays over it after every call of every tick, whichever calls
succeed. -/
theorem overFloor_afterCalls {before s : Scheduler} {w : Workload} (added : before.add w = .ok s)
    (each : w.policy.minCapacity ≤ w.policy.current)
    (total : ∀ d, w.totalMin.get d ≤ w.initial.sumOver w.zoneSets d)
    (worlds : List Surroundings) (world : Surroundings) (n : Nat) :
    w.OverFloor (((s.run worlds).2.afterCalls world n).held w.id) := by
  refine held_induction added (Workload.overFloor_initial each total) ?_ worlds world n
  intro held a status statistics roster above settles
  exact above.settled settles

/-- The first zone set plans 700 and does not get it; the second may go down to 800. -/
theorem overFloor_afterCalls_pair :
    new.add pair = .ok withPair ∧ pair.policy.minCapacity ≤ pair.policy.current ∧
    (∀ d, pair.totalMin.get d ≤ pair.initial.sumOver pair.zoneSets d) ∧
    pair.OverFloor (((withPair.run [reporting 5]).2.afterCalls (reporting 5) 1).held "pair") ∧
    ((withPair.run [reporting 5]).2.held "pair").total = .single "memory" 1800 := by
  have added : new.add pair = .ok withPair := by decide +kernel
  have each : pair.policy.minCapacity ≤ pair.policy.current := by decide
  have total := fun d => (pair_total d).1
  exact ⟨added, each, total,
    overFloor_afterCalls added each total [reporting 5] (reporting 5) 1, by decide +kernel⟩

/-- Added between ceiling and floor, a workload never has bounds in conflict: after any ticks, the
bounds of each zone set in its turn lie on either side of what it holds. -/
theorem no_conflict_tick {before s : Scheduler} {w : Workload} (added : before.add w = .ok s)
    (least : w.policy.minCapacity ≤ w.policy.current)
    (most : w.policy.current ≤ w.policy.maxCapacity)
    (floor : ∀ d, w.totalMin.get d ≤ w.initial.sumOver w.zoneSets d)
    (ceiling : ∀ d, w.initial.sumOver w.zoneSets d ≤ w.totalMax.get d)
    (worlds : List Surroundings) (world : Surroundings) :
    (∀ status statistics roster before z p,
      (w.cycle ((s.run worlds).2.held w.id)).Turn before z p →
      let c := w.cycle ((s.run worlds).2.held w.id)
      let planned := c.plans status statistics roster before
      c.minimumFor planned z p ≤ p.current ∧ p.current ≤ c.maximumFor planned z p) ∧
    ∀ o ∈ ((s.run worlds).2.tick world).1, o.workload = w.id → ∀ z minimum maximum d,
      o.verdict ≠ .error (.configurationConflict z minimum maximum d) := by
  have between : w.UnderCeiling ((s.run worlds).2.held w.id) ∧ w.OverFloor ((s.run worlds).2.held w.id) := by
    -- What a workload holds before the first call of a tick is what it holds after the last one.
    refine held_induction added (P := fun a => w.UnderCeiling a ∧ w.OverFloor a)
      ⟨Workload.underCeiling_initial most ceiling, Workload.overFloor_initial least floor⟩ ?_ worlds
      world 0
    rintro held a status statistics roster ⟨under, above⟩ settles
    exact ⟨under.settled settles, above.settled settles⟩
  refine ⟨fun status statistics roster before z p turn => ?_, ?_⟩
  · exact ⟨between.2.le_current turn, between.1.current_le turn⟩
  rintro ⟨id, zone, v⟩ reported rfl z minimum maximum d rfl
  have registered : (s.run worlds).2.workloads[w.id]? = some w := by
    rw [workloads_run]
    exact getElem?_workloads_add added
  obtain ⟨status, statistics, roster, turns⟩ := exists_turn_of_outcomes registered world
  obtain ⟨earlier, p, turn, verdict⟩ := turns zone _ reported
  refine Cycle.not_le_of_verdict_eq_conflict verdict.symm fun d => ?_
  exact (between.2.le_current turn d).trans (between.1.current_le turn d)

/-- After a tick in which only the second zone set has grown, both still have bounds to decide by. -/
theorem no_conflict_tick_pair :
    new.add pair = .ok withPair ∧
    (∀ o ∈ ((withPair.run [reporting 95]).2.tick (reporting 5)).1, o.workload = "pair" →
      ∀ z minimum maximum d, o.verdict ≠ .error (.configurationConflict z minimum maximum d)) ∧
    ((withPair.run [reporting 95]).2.tick (reporting 5)).1.length = 2 := by
  have added : new.add pair = .ok withPair := by decide +kernel
  have least : pair.policy.minCapacity ≤ pair.policy.current := by decide
  have most : pair.policy.current ≤ pair.policy.maxCapacity := by decide
  have floor := fun d => (pair_total d).1
  have ceiling := fun d => (pair_total d).2
  exact ⟨added, (no_conflict_tick added least most floor ceiling [reporting 95] (reporting 5)).2,
    by decide +kernel⟩

end Scheduler

end Autoscaler
