import Autoscaler.Enforcement.Bounds
import Autoscaler.Enforcement.Cooldown
import Autoscaler.Enforcement.Decision

/-!
# Enforcement engines

The engine of a workload joins the cooldown gate, the bounds and the rules into verdicts on the
capacities of its zone sets. It provisions nothing; whoever calls it acts on the verdicts.
-/

namespace Autoscaler

/-- The live enforcement state of a workload. -/
structure Engine where
  workload : String
  gate : Cooldown.Gate
  /-- What each zone set planned in the latest cycle. -/
  planned : Allocation
  /-- The target of the latest applied change of each zone set. -/
  latest : Allocation
deriving DecidableEq

/-- What one cycle of enforcement starts from. Each policy holds the current capacity of its zone
set. -/
structure Cycle where
  policies : Std.ExtTreeMap ZoneSet Policy
  totalMax : Capacity
  totalMin : Capacity
  lastEnforced : Allocation
deriving DecidableEq

namespace Cycle

/-- The zone sets in the order in which they decide. -/
def zoneSets (c : Cycle) : List ZoneSet := c.policies.keys

/-- What is known to a zone set when others have planned. -/
def holdings (c : Cycle) (planned : Allocation) : Holdings := ⟨c.zoneSets, c.lastEnforced, planned⟩

/-- The largest capacity that a zone set may be given. -/
def maximumFor (c : Cycle) (planned : Allocation) (z : ZoneSet) (p : Policy) : Capacity :=
  (c.holdings planned).maximumFor z c.totalMax p.maxCapacity

/-- The smallest capacity that a zone set may be given. -/
def minimumFor (c : Cycle) (planned : Allocation) (z : ZoneSet) (p : Policy) : Capacity :=
  (c.holdings planned).minimumFor z c.totalMin p.minCapacity

end Cycle

/-- What comes before every decision: the policy has to be without fault, the cooldown over. -/
def precondition? (p : Policy) (status : Cooldown.Status) : Option Refusal :=
  match p.fault?, status with
  | some error, _ => some (.invalidPolicy error)
  | none, .active remaining => some (.cooldown remaining)
  | none, .ready => none

namespace Cycle

/-- The verdict on one zone set, when earlier ones have planned. -/
def verdict (c : Cycle) (status : Cooldown.Status) (statistics : Snapshot) (roster : Roster)
    (planned : Allocation) (z : ZoneSet) (p : Policy) : Verdict :=
  match precondition? p status with
  | some refusal => .error refusal
  | none =>
    let maximum := c.maximumFor planned z p
    let minimum := c.minimumFor planned z p
    match minimum.firstExceeding? maximum with
    | some d => .error (.configurationConflict z minimum maximum d)
    | none => p.decide minimum maximum statistics roster

/-- The verdicts on zone sets in turn, each with the capacity that the zone set then plans. -/
def verdictsFrom (c : Cycle) (status : Cooldown.Status) (statistics : Snapshot) (roster : Roster) :
    Allocation → List (ZoneSet × Policy) → List (ZoneSet × Verdict × Capacity)
  | _, [] => []
  | planned, (z, p) :: rest =>
    let v := c.verdict status statistics roster planned z p
    let plan := v.plan p.current
    (z, v, plan) :: verdictsFrom c status statistics roster (planned.set z plan) rest

/-- The verdicts on all zone sets. -/
def verdicts (c : Cycle) (status : Cooldown.Status) (statistics : Snapshot) (roster : Roster) :
    List (ZoneSet × Verdict × Capacity) :=
  c.verdictsFrom status statistics roster .empty c.policies.toList

end Cycle

namespace Engine

/-- The engine of a workload before its first enforcement. -/
def new (workload : String) (windows : Cooldown.Windows) : Engine :=
  ⟨workload, .new windows, .empty, .empty⟩

/-- The gate after it has seen the instances of now. -/
def observed (e : Engine) (roster : Roster) (now : Nat) : Cooldown.Gate :=
  e.gate.observe (.ofList roster.ids) now

/-- Records the target of an applied change. -/
def record (latest : Allocation) (z : ZoneSet) (v : Verdict) : Allocation :=
  match v.change? with
  | some target => latest.set z target
  | none => latest

/-- Enforces a policy on a workload that is not divided by zones, within the policy's own bounds. -/
def enforce (e : Engine) (p : Policy) (statistics : Snapshot) (roster : Roster) (now : Nat) :
    Verdict × Engine :=
  let gate := e.observed roster now
  let v : Verdict := match precondition? p (gate.status now) with
    | some refusal => .error refusal
    | none => p.decide p.minCapacity p.maxCapacity statistics roster
  (v, { e with gate := gate, latest := record e.latest .whole v })

/-- Enforces every zone set of a cycle in ascending order. -/
def enforceCycle (e : Engine) (c : Cycle) (statistics : Snapshot) (roster : Roster) (now : Nat) :
    List (ZoneSet × Verdict) × Engine :=
  let gate := e.observed roster now
  let verdicts := c.verdicts (gate.status now) statistics roster
  (verdicts.map fun (z, v, _) => (z, v),
    { e with
      gate := gate
      planned := .ofList (verdicts.map fun (z, _, plan) => (z, plan))
      latest := verdicts.foldl (fun latest (z, v, _) => record latest z v) e.latest })

end Engine

end Autoscaler
