import Autoscaler.Duration.Reader
import Autoscaler.Zone.ZoneSet

/-!
# Statistic identifiers

What a statistic measures, how samples were folded into it over which window, and the instances it
covers: all of a workload, those in some zones, or a single one.
-/

namespace Autoscaler

/-- How samples were folded into one value. -/
inductive Aggregation where
  | avg
  | min
  | max
  | sum
  | count
deriving DecidableEq

namespace Aggregation

/-- The name of an aggregation. -/
def name : Aggregation → String
  | .avg => "avg"
  | .min => "min"
  | .max => "max"
  | .sum => "sum"
  | .count => "count"

/-- The aggregation with a name. -/
def ofName? (s : String) : Option Aggregation :=
  [avg, min, max, sum, count].find? fun a => a.name == s

theorem name_injective {a b : Aggregation} (same : a.name = b.name) : a = b := by
  cases a <;> cases b <;> first | rfl | exact absurd same (by decide)

end Aggregation

/-- Identifies one aggregated statistic. -/
structure StatisticId where
  metric : String
  aggregation : Aggregation
  window : Duration
  instanceId : Option String
  zone : Option ZoneSet
deriving DecidableEq

namespace StatisticId

/-- `avg(metric)[5m] zone=a,b instance=i`, the zone and the instance only where they are given. -/
def text (s : StatisticId) : String :=
  s.aggregation.name ++ "(" ++ s.metric ++ ")[" ++ s.window.text ++ "]" ++
    (match s.zone with
      | some z => " zone=" ++ z.text
      | none => "") ++
    match s.instanceId with
      | some i => " instance=" ++ i
      | none => ""

/-- Identifiers are ordered by their parts in turn. -/
instance : Ord StatisticId :=
  ⟨compareLex (compareOn metric) <| compareLex (compareOn fun s => s.aggregation.name) <|
    compareLex (compareOn fun s => s.window.nanos) <|
    compareLex (compareOn instanceId) (compareOn zone)⟩

instance : Std.TransOrd StatisticId :=
  inferInstanceAs <| Std.TransCmp <| compareLex (compareOn metric) <|
    compareLex (compareOn fun s : StatisticId => s.aggregation.name) <|
    compareLex (compareOn fun s => s.window.nanos) <|
    compareLex (compareOn instanceId) (compareOn zone)

instance : Std.LawfulEqOrd StatisticId where
  eq_of_compare {a b} same := by
    simp only [compare, compareLex, Ordering.then_eq_eq] at same
    obtain ⟨metric, aggregation, window, instanceId, zone⟩ := same
    have metric : a.metric = b.metric := Std.LawfulEqOrd.eq_of_compare metric
    have aggregation : a.aggregation = b.aggregation :=
      Aggregation.name_injective (Std.LawfulEqOrd.eq_of_compare aggregation)
    have window : a.window.nanos = b.window.nanos := Std.LawfulEqOrd.eq_of_compare window
    have instanceId : a.instanceId = b.instanceId := Std.LawfulEqOrd.eq_of_compare instanceId
    have zone : a.zone = b.zone := Std.LawfulEqOrd.eq_of_compare zone
    obtain ⟨_, _, ⟨_, _⟩, _, _⟩ := a
    obtain ⟨_, _, ⟨_, _⟩, _, _⟩ := b
    cases metric
    cases aggregation
    cases window
    cases instanceId
    cases zone
    rfl

end StatisticId

end Autoscaler
