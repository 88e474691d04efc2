import Autoscaler.Fleet.Registry
import Autoscaler.Fleet.Workload

/-!
# The scheduler

Each tick runs one cycle for every workload and hands the targets of applied changes to whoever
provisions them. A target counts as enforced only after it has been provisioned.
-/

namespace Autoscaler

/-- The workloads under management, their engines, and what each of their zone sets holds. -/
structure Scheduler where
  registry : Registry
  workloads : Std.ExtTreeMap String Workload
  lastEnforced : Std.ExtTreeMap String Allocation
deriving DecidableEq

/-- What a tick sees of the world: the time in milliseconds, the statistics and the roster of each
workload as far as they can be fetched, and whether a target will be provisioned. Without a
provisioner nothing is. -/
structure Surroundings where
  now : Nat
  statistics : String → Option Snapshot
  roster : String → Option Roster
  provision : Option (String → ZoneSet → Capacity → Bool)

/-- The verdict on a zone set of a workload. -/
structure Outcome where
  workload : String
  zoneSet : ZoneSet
  verdict : Verdict
deriving DecidableEq

/-- A target handed to the provisioner, and whether it was provisioned. -/
structure Call where
  workload : String
  zoneSet : ZoneSet
  target : Capacity
  succeeded : Bool
deriving DecidableEq

/-- The call for the target of an applied change. -/
def Outcome.call? (provision : String → ZoneSet → Capacity → Bool) (o : Outcome) : Option Call :=
  o.verdict.change?.map fun target =>
    ⟨o.workload, o.zoneSet, target, provision o.workload o.zoneSet target⟩

/-- The calls for outcomes, in their order. -/
def Surroundings.calls (s : Surroundings) (outcomes : List Outcome) : List Call :=
  match s.provision with
  | some provision => outcomes.filterMap (Outcome.call? provision)
  | none => []

namespace Scheduler

/-- A scheduler without workloads. -/
def new : Scheduler := ⟨.empty, ∅, ∅⟩

/-- What the zone sets of a workload hold. -/
def lastEnforced? (s : Scheduler) (w : String) : Option Allocation := s.lastEnforced[w]?

/-- What the zone sets of a workload hold, nothing when none is known. -/
def held (s : Scheduler) (w : String) : Allocation := (s.lastEnforced? w).getD .empty

/-- Starts managing a workload. -/
def add (s : Scheduler) (w : Workload) : Except RegistryError Scheduler := do
  let registry ← s.registry.create w.id w.cooldown
  return ⟨registry, s.workloads.insert w.id w, s.lastEnforced.insert w.id w.initial⟩

/-- Stops managing a workload. -/
def remove (s : Scheduler) (w : String) : Except RegistryError (Workload × Scheduler) := do
  let (_, registry) ← s.registry.destroy w
  match s.workloads[w]? with
  | some workload =>
    return (workload, ⟨registry, s.workloads.erase w, s.lastEnforced.erase w⟩)
  | none => .error (.notFound w)

/-- Notes what a zone set of a workload holds. -/
def setLastEnforced (s : Scheduler) (w : String) (z : ZoneSet) (c : Capacity) : Scheduler :=
  { s with lastEnforced := s.lastEnforced.insert w ((s.held w).set z c) }

@[simp] theorem lastEnforced?_setLastEnforced (s : Scheduler) (w other : String) (z : ZoneSet)
    (c : Capacity) : (s.setLastEnforced w z c).lastEnforced? other =
      if w = other then some ((s.held w).set z c) else s.lastEnforced? other := by
  simp only [lastEnforced?, setLastEnforced, Std.ExtTreeMap.getElem?_insert,
    Std.LawfulEqCmp.compare_eq_iff_eq]

/-- Notes the target of a call that succeeded. -/
def settle (s : Scheduler) (call : Call) : Scheduler :=
  if call.succeeded then s.setLastEnforced call.workload call.zoneSet call.target else s

/-- The verdicts on a workload and its engine after them, when its statistics and its roster can be
fetched and it has an engine. -/
def run? (s : Scheduler) (world : Surroundings) (w : Workload) (id : String) :
    Option (List (ZoneSet × Verdict) × Engine) := do
  let statistics ← world.statistics id
  let roster ← world.roster id
  let engine ← s.registry.get? id
  return engine.enforceCycle (w.cycle (s.held id)) statistics roster world.now

/-- The outcomes of one workload. -/
def outcomesOf (s : Scheduler) (world : Surroundings) (id : String) (w : Workload) :
    List Outcome :=
  match s.run? world w id with
  | some (verdicts, _) => verdicts.map fun (z, v) => ⟨id, z, v⟩
  | none => []

/-- The outcomes of a tick, in ascending order of workloads and then of zone sets. -/
def outcomes (s : Scheduler) (world : Surroundings) : List Outcome :=
  s.workloads.toList.flatMap fun (id, w) => s.outcomesOf world id w

/-- The registry after every workload has run. -/
def enginesAfter (s : Scheduler) (world : Surroundings) : Registry :=
  s.workloads.toList.foldl
    (fun r (id, w) => match s.run? world w id with
      | some (_, engine) => r.set id engine
      | none => r)
    s.registry

/-- One tick: the outcomes, the calls made for them, and the scheduler afterwards. -/
def tick (s : Scheduler) (world : Surroundings) : List Outcome × List Call × Scheduler :=
  let outcomes := s.outcomes world
  let calls := world.calls outcomes
  (outcomes, calls, calls.foldl settle { s with registry := s.enginesAfter world })

end Scheduler

end Autoscaler
