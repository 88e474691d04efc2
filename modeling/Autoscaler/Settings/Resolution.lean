import Autoscaler.Fleet.Workload
import Autoscaler.Settings.Basic

/-!
# Resolving settings

Settings become workloads once all that is needed is there and has a meaning. Values are looked at
in a fixed order, and the first that is missing or wrong is reported.
-/

namespace Autoscaler

/-- A value that has to be there. -/
def demand {α : Type} (workload : String) (field : SettingsField) :
    Option α → Except SettingsError α
  | some a => .ok a
  | none => .error (.missingField workload field)

/-- Reads a duration. -/
def resolveDuration (workload : String) (field : SettingsField) (written : String) :
    Except SettingsError Duration :=
  match Duration.parse written with
  | .ok d => .ok d
  | .error reason => .error (.invalidDuration workload field written reason)

/-- Reads a zone set. -/
def resolveZoneSet (workload written : String) : Except SettingsError ZoneSet :=
  match ZoneSet.parse written with
  | .ok z => .ok z
  | .error reason => .error (.invalidZoneSet workload written reason)

/-- The zones of a rule, if it names some. -/
def resolveScope (workload : String) : Option String → Except SettingsError (Option ZoneSet)
  | none => .ok none
  | some written => (resolveZoneSet workload written).map some

/-- The rule of a workload. -/
def RuleSettings.resolve (r : RuleSettings) (workload : String) : Except SettingsError Rule := do
  let window ← resolveDuration workload .ruleWindow (← demand workload .ruleWindow r.window)
  let metric ← demand workload .ruleMetric r.metric
  let aggregation ← demand workload .ruleAggregation r.aggregation
  let zone ← resolveScope workload r.zone
  let low ← demand workload .ruleLow r.low
  let high ← demand workload .ruleHigh r.high
  return ⟨⟨metric, aggregation, window, r.instanceId, zone⟩, low, high⟩

/-- The policy of a workload, before it is checked. -/
def PolicySettings.assemble (p : PolicySettings) (workload : String) :
    Except SettingsError Policy := do
  let rules ← p.rules.mapM fun r => r.resolve workload
  let current ← demand workload .initial p.initial
  let increaseStep ← demand workload .increaseStep p.increaseStep
  let decreaseStep ← demand workload .decreaseStep p.decreaseStep
  let maxCapacity ← demand workload .maxCapacity p.maxCapacity
  let minCapacity ← demand workload .minCapacity p.minCapacity
  return { current, rules, increaseStep, decreaseStep, maxCapacity, minCapacity }

/-- The policy of a workload, without fault. -/
def PolicySettings.resolve (p : PolicySettings) (workload : String) :
    Except SettingsError Policy := do
  let policy ← p.assemble workload
  match policy.fault? with
  | some reason => .error (.invalidPolicy workload reason)
  | none => return policy

/-- Zone sets without repetition, in ascending order. -/
def ZoneSet.distinct (zs : List ZoneSet) : List ZoneSet :=
  (zs.foldl (fun set z => set.insert z) (∅ : Std.ExtTreeSet ZoneSet)).toList

/-- The zone sets of a workload. One that names none is not divided; naming an empty list of them is
as good as a missing value. -/
def resolveZoneSets (workload : String) : Option (List String) →
    Except SettingsError (List ZoneSet)
  | none => .ok [.whole]
  | some [] => .error (.missingField workload .zoneSets)
  | some written => do return ZoneSet.distinct (← written.mapM (resolveZoneSet workload))

/-- A window of a cooldown, with its default. -/
def resolveWindow (workload : String) (field : SettingsField) (default : Duration) :
    Option String → Except SettingsError Duration
  | none => .ok default
  | some written => resolveDuration workload field written

/-- The windows of a cooldown. -/
def resolveCooldown (workload : String) : Option CooldownSettings →
    Except SettingsError Cooldown.Windows
  | none => .ok .default
  | some c => do
    let add ← resolveWindow workload .cooldownAdd Cooldown.Windows.default.add c.add
    let remove ← resolveWindow workload .cooldownRemove Cooldown.Windows.default.remove c.remove
    return ⟨add, remove⟩

/-- The workload that settings describe. A total that is left out is the bound of one zone set times
the number of zone sets. -/
def WorkloadSettings.resolve (s : WorkloadSettings) : Except SettingsError Workload := do
  let id := Text.trim s.id
  if id = "" then .error .emptyWorkloadId
  let zoneSets ← resolveZoneSets id s.zoneSets
  let policy ← (← demand id .policy s.policy).resolve id
  let totalOf := fun bound => Capacity.sum (List.replicate zoneSets.length bound)
  let cooldown ← resolveCooldown id s.cooldown
  return {
    id, zoneSets, cooldown, policy
    totalMax := s.totalMax.getD (totalOf policy.maxCapacity)
    totalMin := s.totalMin.getD (totalOf policy.minCapacity) }

namespace Settings

/-- Resolves workloads in turn. None may have the id of one before it. -/
def resolveFrom : List String → List WorkloadSettings → Except SettingsError (List Workload)
  | _, [] => .ok []
  | taken, s :: rest => do
    let workload ← s.resolve
    if workload.id ∈ taken then .error (.duplicateWorkload workload.id)
    return workload :: (← resolveFrom (workload.id :: taken) rest)

/-- The workloads that settings describe. -/
def resolve (s : Settings) : Except SettingsError (List Workload) := resolveFrom [] s.workloads

end Settings

end Autoscaler
