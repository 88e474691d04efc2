import Autoscaler.Fleet.Run

/-!
# Observations

What was recorded about workloads: their statistics, their rosters, and what their zone sets held.
A workload can be evaluated against an observation on its own, or all of them can be run by a
scheduler that starts from what was recorded.
-/

namespace Autoscaler

/-- What was recorded about one workload. -/
structure Observation where
  statistics : Snapshot
  roster : Roster
  lastEnforced : Allocation
deriving DecidableEq

/-- What was recorded about each of finitely many workloads. -/
abbrev Observations := Std.ExtTreeMap String Observation

namespace Workload

/-- What a zone set holds: what was recorded, else what it starts with. -/
def heldBy (w : Workload) (o : Observation) (z : ZoneSet) : Capacity :=
  (o.lastEnforced.get? z).getD w.policy.current

/-- What the zone sets of the workload hold. -/
def seeded (w : Workload) (o : Observation) : Allocation :=
  .ofList (w.zoneSets.map fun z => (z, w.heldBy o z))

/-- The verdicts of a new engine on the zone sets, so that no cooldown is active. -/
def evaluate (w : Workload) (o : Observation) (now : Nat) : List (ZoneSet × Verdict) :=
  (w.engine.enforceCycle (w.cycle (w.seeded o)) o.statistics o.roster now).1

end Workload

namespace Scheduler

/-- Notes what was recorded for the zone sets of a workload. -/
def seed (s : Scheduler) (w : Workload) (o : Observation) : Scheduler :=
  (w.zoneSets.filter o.lastEnforced.contains).foldl
    (fun s z => s.setLastEnforced w.id z (o.lastEnforced.get z)) s

/-- Starts managing a workload with what was recorded of it. -/
def enroll (s : Scheduler) (recorded : Observations) (w : Workload) :
    Except RegistryError Scheduler := do
  let s ← s.add w
  match recorded[w.id]? with
  | some o => return s.seed w o
  | none => return s

/-- A scheduler for workloads that starts from what was recorded. -/
def start (workloads : List Workload) (recorded : Observations) : Except RegistryError Scheduler :=
  workloads.foldlM (fun s w => s.enroll recorded w) .new

end Scheduler

/-- What a tick sees when everything is read from a record and every target is accepted. Without a
record nothing can be fetched. -/
def Surroundings.ofRecord (now : Nat) (recorded : Option Observations) : Surroundings where
  now := now
  statistics := fun w => recorded.bind fun r => r[w]?.map Observation.statistics
  roster := fun w => recorded.bind fun r => r[w]?.map Observation.roster
  provision := some fun _ _ _ => true

end Autoscaler
