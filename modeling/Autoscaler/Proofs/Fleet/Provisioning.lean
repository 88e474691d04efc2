import Autoscaler.Fleet.Run
import Autoscaler.Proofs.Enforcement.Totals

/-!
# Provisioning

What a workload's zone sets hold while the targets of a tick are being provisioned. However many of
the calls have been made, and whichever of them succeeded, each zone set holds what it held before
the tick or what it planned in it (`exists_settles_afterCalls`).
-/

namespace Autoscaler

/-! ## The cycles of a workload -/

namespace Workload

variable (w : Workload) (held : Allocation)

theorem getElem?_policies (z : ZoneSet) : (w.cycle held).policies[z]? =
    if z ∈ w.zoneSets then some (w.policy.withCurrent (held.get z)) else none := by
  rw [cycle, policies, getElem?_foldl_insert, Std.ExtTreeMap.getElem?_empty]

variable {w held}

theorem policy_eq {z : ZoneSet} {p : Policy} (found : (w.cycle held).policies[z]? = some p) :
    p = w.policy.withCurrent (held.get z) := by
  rw [getElem?_policies] at found
  split at found
  · exact (Option.some.inj found).symm
  · cases found

theorem mem_zoneSets_cycle {z : ZoneSet} : z ∈ (w.cycle held).zoneSets ↔ z ∈ w.zoneSets := by
  rw [Cycle.mem_zoneSets, getElem?_policies]
  split <;> simp_all

/-- A cycle has each zone set of the workload once, however often it is listed. -/
theorem sumOver_zoneSets_cycle (held a : Allocation) (d : String) :
    a.sumOver (w.cycle held).zoneSets d = a.sumOver w.zoneSets d := by
  have same : (w.cycle held).zoneSets.toFinset = w.zoneSets.toFinset := by
    ext z
    rw [List.mem_toFinset, List.mem_toFinset, mem_zoneSets_cycle]
  rw [Allocation.sumOver, same, Allocation.sumOver]

theorem grounded_cycle : (w.cycle held).Grounded := by
  intro z p found
  rw [policy_eq found]
  rfl

theorem get_initial {z : ZoneSet} (mem : z ∈ w.zoneSets) : w.initial.get z = w.policy.current :=
  Allocation.get_ofList_map mem fun _ => w.policy.current

theorem get?_initial (w : Workload) (z : ZoneSet) :
    w.initial.get? z = if z ∈ w.zoneSets then some w.policy.current else none :=
  Allocation.get?_ofList_map w.zoneSets (fun _ => w.policy.current) z

end Workload

/-! ## Plans and applied changes -/

theorem Verdict.plan_of_change? {v : Verdict} {target : Capacity} (applied : v.change? = some target)
    (current : Capacity) : v.plan current = target := by
  cases v with
  | error refusal => cases applied
  | ok decision =>
    cases decision with
    | unchanged capacity reason => cases applied
    | applied old new direction => exact Option.some.inj applied

/-! ## Ticks -/

namespace Scheduler

/-- The scheduler once the first `n` calls of a tick have been made. -/
def afterCalls (s : Scheduler) (world : Surroundings) (n : Nat) : Scheduler :=
  ((s.tick world).2.1.take n).foldl settle { s with registry := s.enginesAfter world }

theorem afterCalls_length (s : Scheduler) (world : Surroundings) :
    s.afterCalls world (s.tick world).2.1.length = (s.tick world).2.2 := by
  rw [afterCalls, List.take_length]
  rfl

theorem workloads_foldl_settle (calls : List Call) (s : Scheduler) :
    (calls.foldl settle s).workloads = s.workloads := by
  induction calls generalizing s with
  | nil => rfl
  | cons call rest ih =>
    rw [List.foldl_cons, ih, settle]
    split <;> rfl

@[simp] theorem workloads_tick (s : Scheduler) (world : Surroundings) :
    (s.tick world).2.2.workloads = s.workloads :=
  workloads_foldl_settle _ _

/-- What holds of a scheduler and is kept by every tick holds throughout its runs. -/
theorem run_induction {P : Scheduler → Prop} (step : ∀ s world, P s → P (s.tick world).2.2)
    (worlds : List Surroundings) {s : Scheduler} (start : P s) : P (s.run worlds).2 := by
  induction worlds generalizing s with
  | nil => exact start
  | cons world rest ih => exact ih (step s world start)

theorem workloads_run (s : Scheduler) (worlds : List Surroundings) :
    (s.run worlds).2.workloads = s.workloads := by
  refine run_induction (P := fun t => t.workloads = s.workloads) ?_ worlds rfl
  intro t world same
  rw [workloads_tick, same]

theorem held_settle (s : Scheduler) (call : Call) (id : String) (z : ZoneSet) :
    ((s.settle call).held id).get z = (s.held id).get z ∨
      call.workload = id ∧ call.zoneSet = z ∧ ((s.settle call).held id).get z = call.target := by
  rw [settle]
  by_cases succeeded : call.succeeded = true
  · rw [if_pos succeeded, held, lastEnforced?_setLastEnforced]
    by_cases own : call.workload = id
    · by_cases same : call.zoneSet = z
      · refine .inr ⟨own, same, ?_⟩
        simp [own, same]
      · refine .inl ?_
        simp [own, same]
    · rw [if_neg own]
      exact .inl rfl
  · rw [if_neg succeeded]
    exact .inl rfl

/-- A zone set keeps what it holds unless a call for it puts its target there. -/
theorem held_foldl_settle (calls : List Call) (s : Scheduler) (id : String) (z : ZoneSet) :
    ((calls.foldl settle s).held id).get z = (s.held id).get z ∨
      ∃ call ∈ calls, call.workload = id ∧ call.zoneSet = z ∧
        ((calls.foldl settle s).held id).get z = call.target := by
  induction calls generalizing s with
  | nil => exact .inl rfl
  | cons first rest ih =>
    rcases ih (s.settle first) with kept | ⟨call, listed, written⟩
    · rcases held_settle s first id z with same | ⟨own, zone, target⟩
      · exact .inl (kept.trans same)
      · exact .inr ⟨first, List.mem_cons_self, own, zone, kept.trans target⟩
    · exact .inr ⟨call, List.mem_cons_of_mem _ listed, written⟩

theorem run?_eq_some {s : Scheduler} {world : Surroundings} {w : Workload} {id : String}
    {verdicts : List (ZoneSet × Verdict)} {after : Engine} :
    s.run? world w id = some (verdicts, after) ↔
      ∃ statistics roster engine, world.statistics id = some statistics ∧
        world.roster id = some roster ∧ s.registry.get? id = some engine ∧
        engine.enforceCycle (w.cycle (s.held id)) statistics roster world.now = (verdicts, after) := by
  simp only [run?, Option.bind_eq_bind, Option.bind_eq_some_iff, Option.pure_def, Option.some.injEq]
  constructor
  · rintro ⟨statistics, fetched, roster, known, engine, live, result⟩
    exact ⟨statistics, roster, engine, fetched, known, live, result⟩
  · rintro ⟨statistics, roster, engine, fetched, known, live, result⟩
    exact ⟨statistics, fetched, roster, known, engine, live, result⟩

theorem mem_outcomes {s : Scheduler} {world : Surroundings} {o : Outcome} :
    o ∈ s.outcomes world ↔ ∃ w verdicts after, s.workloads[o.workload]? = some w ∧
      s.run? world w o.workload = some (verdicts, after) ∧ (o.zoneSet, o.verdict) ∈ verdicts := by
  simp only [outcomes, List.mem_flatMap, Prod.exists, Std.ExtTreeMap.mem_toList_iff_getElem?_eq_some]
  constructor
  · rintro ⟨id, w, found, listed⟩
    rw [outcomesOf] at listed
    split at listed
    · rename_i verdicts after ran
      obtain ⟨⟨z, v⟩, mem, rfl⟩ := List.mem_map.mp listed
      exact ⟨w, verdicts, after, found, ran, mem⟩
    · cases listed
  · rintro ⟨w, verdicts, after, found, ran, mem⟩
    refine ⟨o.workload, w, found, ?_⟩
    rw [outcomesOf, ran]
    exact List.mem_map.mpr ⟨(o.zoneSet, o.verdict), mem, rfl⟩

/-- Every call of a tick is for the target of an applied change among its outcomes. -/
theorem exists_outcome_of_mem_calls {s : Scheduler} {world : Surroundings} {call : Call}
    (made : call ∈ (s.tick world).2.1) :
    ∃ v, ⟨call.workload, call.zoneSet, v⟩ ∈ s.outcomes world ∧ v.change? = some call.target := by
  change call ∈ world.calls (s.outcomes world) at made
  rw [Surroundings.calls] at made
  split at made
  · obtain ⟨o, listed, called⟩ := List.mem_filterMap.mp made
    obtain ⟨target, applied, rfl⟩ := Option.map_eq_some_iff.mp called
    exact ⟨o.verdict, listed, applied⟩
  · cases made

/-- The outcomes of a workload that runs are the verdicts of one cycle, each from its turn. -/
theorem exists_turn_of_run? {s : Scheduler} {world : Surroundings} {id : String} {w : Workload}
    {verdicts : List (ZoneSet × Verdict)} {after : Engine} (found : s.workloads[id]? = some w)
    (ran : s.run? world w id = some (verdicts, after)) :
    ∃ status statistics roster, world.statistics id = some statistics ∧
      world.roster id = some roster ∧ ∀ z v, ⟨id, z, v⟩ ∈ s.outcomes world →
      ∃ before p, (w.cycle (s.held id)).Turn before z p ∧
        v = (w.cycle (s.held id)).verdict status statistics roster
          ((w.cycle (s.held id)).plans status statistics roster before) z p := by
  obtain ⟨statistics, roster, engine, fetched, known, -, enforced⟩ := run?_eq_some.mp ran
  refine ⟨engine.statusAt roster world.now, statistics, roster, fetched, known, fun z v reported => ?_⟩
  obtain ⟨other, verdicts', after', registered, cycled, listed⟩ := mem_outcomes.mp reported
  cases Option.some.inj (registered.symm.trans found)
  cases Option.some.inj (ran.symm.trans cycled)
  have decided :
      (z, v) ∈ (engine.enforceCycle (w.cycle (s.held id)) statistics roster world.now).1 := by
    rw [enforced]
    exact listed
  exact Engine.mem_enforceCycle.mp decided

/-- The outcomes of a tick for a workload are the verdicts of one cycle, each from its turn. -/
theorem exists_turn_of_outcomes {s : Scheduler} {id : String} {w : Workload}
    (found : s.workloads[id]? = some w) (world : Surroundings) :
    ∃ status statistics roster, ∀ z v, ⟨id, z, v⟩ ∈ s.outcomes world →
      ∃ before p, (w.cycle (s.held id)).Turn before z p ∧
        v = (w.cycle (s.held id)).verdict status statistics roster
          ((w.cycle (s.held id)).plans status statistics roster before) z p := by
  cases ran : s.run? world w id with
  | none =>
    refine ⟨.ready, .empty, .empty, fun z v reported => ?_⟩
    obtain ⟨other, verdicts, after, registered, cycled, -⟩ := mem_outcomes.mp reported
    cases Option.some.inj (registered.symm.trans found)
    cases ran.symm.trans cycled
  | some result =>
    obtain ⟨status, statistics, roster, -, -, turns⟩ := exists_turn_of_run? found ran
    exact ⟨status, statistics, roster, turns⟩

/-- However many calls of a tick have been made, every zone set of a workload holds what it held
before the tick or what it plans in the workload's cycle. -/
theorem exists_settles_afterCalls {s : Scheduler} {id : String} {w : Workload}
    (found : s.workloads[id]? = some w) (world : Surroundings) (n : Nat) :
    ∃ status statistics roster, (w.cycle (s.held id)).Settles ((w.cycle (s.held id)).plans status
      statistics roster (w.cycle (s.held id)).policies.toList) ((s.afterCalls world n).held id) := by
  obtain ⟨status, statistics, roster, turns⟩ := exists_turn_of_outcomes found world
  refine ⟨status, statistics, roster, fun z _ => ?_⟩
  rcases held_foldl_settle ((s.tick world).2.1.take n) { s with registry := s.enginesAfter world }
    id z with kept | ⟨call, made, rfl, rfl, target⟩
  · exact .inl kept
  · obtain ⟨v, reported, applied⟩ := exists_outcome_of_mem_calls (List.mem_of_mem_take made)
    obtain ⟨before, p, turn, rfl⟩ := turns _ _ reported
    refine .inr (target.trans ?_)
    rw [Allocation.get_eq _ call.zoneSet, turn.get?_plans_toList, Verdict.plan_of_change? applied]
    rfl

end Scheduler

end Autoscaler
