import Autoscaler.Document.Quantity
import Autoscaler.Document.Record
import Autoscaler.Statistic.Roster
import Autoscaler.Statistic.Snapshot

/-!
# Documents of statistics and rosters

How identifiers, readings, snapshots and rosters stand in documents.
-/

namespace Autoscaler

open Document (required? optional? defaulted?)

/-- A choice between the names of the aggregations. -/
def Aggregation.ofDocument? (dialect : Dialect) (d : Document) : Option Aggregation :=
  (dialect.choice? d).bind ofName?

/-- A text that gives a duration. -/
def Duration.ofDocument? (d : Document) : Option Duration :=
  d.text?.bind fun s => (Duration.parse s).toOption

/-- A record of the parts; instance and zone may be left out. -/
def StatisticId.ofDocument? (d : Document) : Option StatisticId := do
  let fields ← Dialect.json.record? ["metric", "aggregation", "window", "instance", "zone"] 3 d
  let metric ← required? fields "metric" Document.text?
  let aggregation ← required? fields "aggregation" (Aggregation.ofDocument? .json)
  let window ← required? fields "window" Duration.ofDocument?
  let instanceId ← optional? fields "instance" Document.text?
  let zone ← optional? fields "zone" ZoneSet.ofDocument?
  return ⟨metric, aggregation, window, instanceId, zone⟩

/-- The document of an identifier. -/
def StatisticId.toDocument (s : StatisticId) : Document :=
  .table <|
    [("metric", .text s.metric), ("aggregation", .text s.aggregation.name),
      ("window", .text s.window.text)] ++
    (s.instanceId.toList.map fun i => ("instance", .text i)) ++
    (s.zone.toList.map fun z => ("zone", z.toDocument))

/-- The reading of a statistic; contributors may be left out. -/
def Reading.ofDocument? (d : Document) : Option (StatisticId × Reading) := do
  let fields ← Dialect.json.record? ["statistic", "value", "contributors"] 2 d
  let statistic ← required? fields "statistic" StatisticId.ofDocument?
  let value ← required? fields "value" StatValue.ofDocument?
  let contributors ← defaulted? fields "contributors" [] fun d => d.listOf? Document.text?
  return (statistic, ⟨value, .ofList contributors⟩)

/-- A list of readings. -/
def Snapshot.ofDocument? (d : Document) : Option Snapshot :=
  (d.listOf? Reading.ofDocument?).map Snapshot.ofList

/-- A table of the zones that instances run in. -/
def Roster.ofDocument? (d : Document) : Option Roster :=
  (d.tableOf? Document.text?).map Roster.ofList

end Autoscaler
