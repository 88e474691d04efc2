import Autoscaler.Document.Json.Reader
import Autoscaler.Document.Statistics
import Autoscaler.Fleet.Observation

/-!
# Documents of observations

A record of workloads is a JSON text: a table of observations under the ids of the workloads.
-/

namespace Autoscaler

open Document (defaulted?)

/-- A record; each of its fields may be left out. -/
def Observation.ofDocument? (d : Document) : Option Observation := do
  let fields ← Dialect.json.record? ["statistics", "membership", "last_enforced"] 0 d
  let statistics ← defaulted? fields "statistics" .empty Snapshot.ofDocument?
  let roster ← defaulted? fields "membership" .empty Roster.ofDocument?
  let lastEnforced ← defaulted? fields "last_enforced" .empty Allocation.ofDocument?
  return { statistics, roster, lastEnforced }

/-- The observations in a table. -/
def Observations.ofDocument? (d : Document) : Option Observations :=
  (d.tableOf? Observation.ofDocument?).map fun entries =>
    entries.foldl (fun m e => m.insert e.1 e.2) ∅

/-- The observations in a JSON text. -/
def Observations.ofText? (s : String) : Option Observations :=
  (Json.read? s).bind Observations.ofDocument?

end Autoscaler
