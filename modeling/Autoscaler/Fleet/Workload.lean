import Autoscaler.Enforcement.Engine

/-!
# Workloads

Everything needed to scale one workload, and the cycles that start from it.
-/

namespace Autoscaler

/-- A workload with the zone sets it is divided into, the limits of its total, and the policy of
each zone set, whose current capacity is the one that each of them starts with. -/
structure Workload where
  id : String
  zoneSets : List ZoneSet
  totalMax : Capacity
  totalMin : Capacity
  cooldown : Cooldown.Windows
  policy : Policy
deriving DecidableEq

namespace Workload

/-- Every zone set at the capacity that it starts with. -/
def initial (w : Workload) : Allocation := .ofList (w.zoneSets.map fun z => (z, w.policy.current))

/-- The policies of the zone sets that hold an allocation. -/
def policies (w : Workload) (held : Allocation) : Std.ExtTreeMap ZoneSet Policy :=
  w.zoneSets.foldl (fun m z => m.insert z (w.policy.withCurrent (held.get z))) ∅

/-- A cycle that starts from an allocation. -/
def cycle (w : Workload) (held : Allocation) : Cycle :=
  ⟨w.policies held, w.totalMax, w.totalMin, held⟩

/-- A new engine for the workload. -/
def engine (w : Workload) : Engine := .new w.id w.cooldown

end Workload

end Autoscaler
