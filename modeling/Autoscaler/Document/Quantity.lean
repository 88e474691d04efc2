import Autoscaler.Document.Basic
import Autoscaler.Statistic.Value
import Autoscaler.Zone.Allocation

/-!
# Documents of values, capacities and allocations

Each quantity has one form in a document, and reading that form gives the quantity back.
-/

namespace Autoscaler

/-- A number or a text. Integers beyond 64 bits with a sign become floats. -/
def StatValue.ofDocument? : Document → Option StatValue
  | .integer n => some ((StatValue.ofInt? n).getD (.float (.ofInt n)))
  | .float x => some (.float x)
  | .text s => some (.text s)
  | _ => none

/-- The document of a value. -/
def StatValue.toDocument : StatValue → Document
  | .integer n => .integer n.toInt
  | .float x => .float x
  | .text s => .text s

/-- A table of amounts. -/
def Capacity.ofDocument? (d : Document) : Option Capacity :=
  (d.tableOf? Document.natural?).map Capacity.ofEntries

/-- The table of the amounts that are not zero, in ascending order of the dimensions. -/
def Capacity.toDocument (c : Capacity) : Document :=
  .table (c.toList.map fun (d, n) => (d, .integer n))

/-- A zone set from its text. -/
def ZoneSet.ofText? (s : String) : Option ZoneSet := (ZoneSet.parse s).toOption

/-- A text that names zones. -/
def ZoneSet.ofDocument? (d : Document) : Option ZoneSet := d.text?.bind ZoneSet.ofText?

/-- The document of a zone set. -/
def ZoneSet.toDocument (z : ZoneSet) : Document := .text z.text

/-- A table of capacities under the texts of zone sets. -/
def Allocation.ofDocument? (d : Document) : Option Allocation := do
  let entries ← d.tableOf? Capacity.ofDocument?
  let entries ← entries.mapM fun (name, c) => (ZoneSet.ofText? name).map fun z => (z, c)
  return .ofList entries

/-- The table of the entries in ascending order of the zone sets. -/
def Allocation.toDocument (a : Allocation) : Document :=
  .table (a.toList.map fun (z, c) => (z.text, c.toDocument))

end Autoscaler
