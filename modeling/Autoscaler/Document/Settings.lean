import Autoscaler.Document.Statistics
import Autoscaler.Document.Toml.Printer
import Autoscaler.Document.Toml.Reader
import Autoscaler.Settings.Basic

/-!
# Documents of settings

Settings as documents and as the text of a file. Values that are left out have no field.
-/

namespace Autoscaler

open Document (required? optional? defaulted?)

/-! ## Reading -/

/-- A record, each of whose fields may be left out. -/
def RuleSettings.ofDocument? (dialect : Dialect) (d : Document) : Option RuleSettings := do
  let fields ← dialect.record?
    ["metric", "aggregation", "window", "zone", "instance", "low", "high"] 7 d
  let metric ← optional? fields "metric" Document.text?
  let aggregation ← optional? fields "aggregation" (Aggregation.ofDocument? dialect)
  let window ← optional? fields "window" Document.text?
  let zone ← optional? fields "zone" Document.text?
  let instanceId ← optional? fields "instance" Document.text?
  let low ← optional? fields "low" StatValue.ofDocument?
  let high ← optional? fields "high" StatValue.ofDocument?
  return { metric, aggregation, window, zone, instanceId, low, high }

/-- A record, each of whose fields may be left out. -/
def PolicySettings.ofDocument? (dialect : Dialect) (d : Document) : Option PolicySettings := do
  let fields ← dialect.record?
    ["initial", "increase_step", "decrease_step", "max_capacity", "min_capacity", "rule"] 5 d
  let initial ← optional? fields "initial" Capacity.ofDocument?
  let increaseStep ← optional? fields "increase_step" Capacity.ofDocument?
  let decreaseStep ← optional? fields "decrease_step" Capacity.ofDocument?
  let maxCapacity ← optional? fields "max_capacity" Capacity.ofDocument?
  let minCapacity ← optional? fields "min_capacity" Capacity.ofDocument?
  let rules ← defaulted? fields "rule" [] fun d =>
    d.listOf? (RuleSettings.ofDocument? dialect)
  return { initial, increaseStep, decreaseStep, maxCapacity, minCapacity, rules }

/-- A record, each of whose fields may be left out. -/
def CooldownSettings.ofDocument? (dialect : Dialect) (d : Document) :
    Option CooldownSettings := do
  let fields ← dialect.record? ["add", "remove"] 2 d
  let add ← optional? fields "add" Document.text?
  let remove ← optional? fields "remove" Document.text?
  return { add, remove }

/-- A record that has an id; its other fields may be left out. -/
def WorkloadSettings.ofDocument? (dialect : Dialect) (d : Document) :
    Option WorkloadSettings := do
  let fields ← dialect.record?
    ["id", "zone_sets", "total_max", "total_min", "cooldown", "policy"] 6 d
  let id ← required? fields "id" Document.text?
  let zoneSets ← optional? fields "zone_sets" fun d => d.listOf? Document.text?
  let totalMax ← optional? fields "total_max" Capacity.ofDocument?
  let totalMin ← optional? fields "total_min" Capacity.ofDocument?
  let cooldown ← optional? fields "cooldown" (CooldownSettings.ofDocument? dialect)
  let policy ← optional? fields "policy" (PolicySettings.ofDocument? dialect)
  return { id, zoneSets, totalMax, totalMin, cooldown, policy }

/-- A record of a list of workloads, which may be left out. -/
def Settings.ofDocument? (dialect : Dialect) (d : Document) : Option Settings := do
  let fields ← dialect.record? ["workload"] 0 d
  let workloads ← defaulted? fields "workload" [] fun d =>
    d.listOf? (WorkloadSettings.ofDocument? dialect)
  return { workloads }

/-- The settings in the text of a file. -/
def Settings.ofText (s : String) : Except SettingsError Settings :=
  match (Toml.read? s).bind (Settings.ofDocument? .toml) with
  | some settings => .ok settings
  | none => .error .unreadable

/-! ## Writing -/

/-- A field for a value, none when it is left out. -/
def field {α : Type} (name : String) (write : α → Document) (value : Option α) :
    List (String × Document) :=
  (value.map fun a => (name, write a)).toList

/-- The document of a rule. -/
def RuleSettings.toDocument (r : RuleSettings) : Document :=
  .table <|
    field "metric" .text r.metric ++ field "aggregation" (.text ·.name) r.aggregation ++
    field "window" .text r.window ++ field "zone" .text r.zone ++
    field "instance" .text r.instanceId ++ field "low" StatValue.toDocument r.low ++
    field "high" StatValue.toDocument r.high

/-- The document of a policy. -/
def PolicySettings.toDocument (p : PolicySettings) : Document :=
  .table <|
    field "initial" Capacity.toDocument p.initial ++
    field "increase_step" Capacity.toDocument p.increaseStep ++
    field "decrease_step" Capacity.toDocument p.decreaseStep ++
    field "max_capacity" Capacity.toDocument p.maxCapacity ++
    field "min_capacity" Capacity.toDocument p.minCapacity ++
    [("rule", .list (p.rules.map RuleSettings.toDocument))]

/-- The document of cooldown windows. -/
def CooldownSettings.toDocument (c : CooldownSettings) : Document :=
  .table <| field "add" .text c.add ++ field "remove" .text c.remove

/-- The document of a workload. -/
def WorkloadSettings.toDocument (w : WorkloadSettings) : Document :=
  .table <|
    [("id", .text w.id)] ++
    field "zone_sets" (fun names => .list (names.map .text)) w.zoneSets ++
    field "total_max" Capacity.toDocument w.totalMax ++
    field "total_min" Capacity.toDocument w.totalMin ++
    field "cooldown" CooldownSettings.toDocument w.cooldown ++
    field "policy" PolicySettings.toDocument w.policy

/-- The fields of the document of settings. -/
def Settings.toFields (s : Settings) : List (String × Document) :=
  [("workload", .list (s.workloads.map WorkloadSettings.toDocument))]

/-- The capacities that a policy names. -/
def PolicySettings.capacities (p : PolicySettings) : List Capacity :=
  [p.initial, p.increaseStep, p.decreaseStep, p.maxCapacity, p.minCapacity].flatMap Option.toList

/-- The capacities that a workload names. -/
def WorkloadSettings.capacities (w : WorkloadSettings) : List Capacity :=
  [w.totalMax, w.totalMin].flatMap Option.toList ++
    w.policy.toList.flatMap PolicySettings.capacities

/-- Whether every amount fits an integer with a sign. -/
def Settings.isWritable (s : Settings) : Bool :=
  (s.workloads.flatMap WorkloadSettings.capacities).all fun c =>
    c.toList.all fun (_, n) => n < signedLimit

/-- The text of a file with the settings. -/
def Settings.text (s : Settings) : Except SettingsError String :=
  if s.isWritable then .ok (Toml.write s.toFields) else .error .unwritable

end Autoscaler
