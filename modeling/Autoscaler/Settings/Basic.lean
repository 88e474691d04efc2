import Autoscaler.Policy
import Autoscaler.Duration.Reader

/-!
# Settings

What a settings file says about workloads, before it is known whether that is enough. Every value
but the id of a workload may be left out, so that a missing one can be reported by name.
-/

namespace Autoscaler

/-- What is said about a rule. -/
structure RuleSettings where
  metric : Option String
  aggregation : Option Aggregation
  window : Option String
  zone : Option String
  instanceId : Option String
  low : Option StatValue
  high : Option StatValue
deriving DecidableEq

/-- What is said about a policy. -/
structure PolicySettings where
  initial : Option Capacity
  increaseStep : Option Capacity
  decreaseStep : Option Capacity
  maxCapacity : Option Capacity
  minCapacity : Option Capacity
  rules : List RuleSettings
deriving DecidableEq

/-- What is said about cooldown windows. -/
structure CooldownSettings where
  add : Option String
  remove : Option String
deriving DecidableEq

/-- What is said about a workload. -/
structure WorkloadSettings where
  id : String
  zoneSets : Option (List String)
  totalMax : Option Capacity
  totalMin : Option Capacity
  cooldown : Option CooldownSettings
  policy : Option PolicySettings
deriving DecidableEq

/-- What is said about all workloads. -/
structure Settings where
  workloads : List WorkloadSettings
deriving DecidableEq

/-- A value that may be missing or unreadable. -/
inductive SettingsField where
  | zoneSets
  | cooldownAdd
  | cooldownRemove
  | policy
  | initial
  | increaseStep
  | decreaseStep
  | maxCapacity
  | minCapacity
  | ruleMetric
  | ruleAggregation
  | ruleWindow
  | ruleLow
  | ruleHigh
deriving DecidableEq

/-- The name of a value, as far as it depends on the workload. -/
def SettingsField.name : SettingsField → String
  | .zoneSets => "zone_sets"
  | .cooldownAdd => "cooldown.add"
  | .cooldownRemove => "cooldown.remove"
  | .policy => "policy"
  | .initial => "policy.initial"
  | .increaseStep => "policy.increase_step"
  | .decreaseStep => "policy.decrease_step"
  | .maxCapacity => "policy.max_capacity"
  | .minCapacity => "policy.min_capacity"
  | .ruleMetric => "rule.metric"
  | .ruleAggregation => "rule.aggregation"
  | .ruleWindow => "rule.window"
  | .ruleLow => "rule.low"
  | .ruleHigh => "rule.high"

/-- What is wrong with settings. -/
inductive SettingsError where
  /-- The text does not hold settings. -/
  | unreadable
  /-- An amount is too large for the file. -/
  | unwritable
  | emptyWorkloadId
  | duplicateWorkload (id : String)
  | missingField (workload : String) (field : SettingsField)
  | invalidDuration (workload : String) (field : SettingsField) (written : String)
      (reason : DurationError)
  | invalidZoneSet (workload written : String) (reason : ZoneSetError)
  | invalidPolicy (workload : String) (reason : PolicyError)
deriving DecidableEq

/-- The message of an error. -/
def SettingsError.message : SettingsError → String
  | .unreadable => "invalid config"
  | .unwritable => "failed to render config: out-of-range value for u64 type"
  | .emptyWorkloadId => "workload id may not be empty"
  | .duplicateWorkload id => "duplicate workload id: " ++ id
  | .missingField w field => "workload " ++ w ++ ": missing field `" ++ field.name ++ "`"
  | .invalidDuration w field written reason => "workload " ++ w ++ ": invalid duration " ++
      Text.quoted written ++ " for `" ++ field.name ++ "`: " ++ reason.message
  | .invalidZoneSet w written reason => "workload " ++ w ++ ": invalid zone set " ++
      Text.quoted written ++ ": " ++ reason.message
  | .invalidPolicy w reason => "workload " ++ w ++ ": invalid policy: " ++ reason.message

/-- Settings of one workload to start from, with two zone sets and one rule on memory. -/
def Settings.starter (id : String) : Settings :=
  let memory := fun n => some (Capacity.single "memory" n)
  let rule : RuleSettings :=
    { metric := some "heap_used_pct", aggregation := some .avg, window := some "5m"
      zone := none, instanceId := none
      low := some (.integer 20), high := some (.integer 80) }
  let policy : PolicySettings :=
    { initial := memory 1024, increaseStep := memory 512, decreaseStep := memory 256
      maxCapacity := memory 2048, minCapacity := memory 512, rules := [rule] }
  ⟨[{ id, zoneSets := some ["zone-a", "zone-b"]
      totalMax := memory 4096, totalMin := memory 1024
      cooldown := some ⟨some "2m", some "5m"⟩
      policy := some policy }]⟩

end Autoscaler
