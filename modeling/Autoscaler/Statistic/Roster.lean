import Autoscaler.Statistic.Id
import Std.Data.ExtTreeMap

/-!
# Rosters

The membership of a workload: its current instances and the zone each of them runs in.
-/

namespace Autoscaler

/-- The current instances of a workload, each with its zone. -/
structure Roster where
  zones : Std.ExtTreeMap String String
deriving DecidableEq

namespace Roster

/-- No instances. -/
def empty : Roster := ⟨∅⟩

/-- The instances of a list with their zones, the last entry standing for a repeated instance. -/
def ofList (entries : List (String × String)) : Roster :=
  ⟨entries.foldl (fun m e => m.insert e.1 e.2) ∅⟩

/-- The zone of an instance. -/
def zoneOf? (r : Roster) (i : String) : Option String := r.zones[i]?

/-- The instances in ascending order. -/
def ids (r : Roster) : List String := r.zones.keys

/-- How many instances there are. -/
def size (r : Roster) : Nat := r.zones.size

/-- Whether an instance is one that a statistic is meant to cover. -/
def covers (s : StatisticId) (i zone : String) : Bool :=
  (match s.instanceId with
    | some wanted => wanted == i
    | none => true) &&
  match s.zone with
    | some z => decide (zone ∈ z)
    | none => true

/-- The instances that a statistic is meant to cover, in ascending order. -/
def inScope (r : Roster) (s : StatisticId) : List String :=
  (r.zones.toList.filter fun (i, zone) => covers s i zone).map Prod.fst

/-- An instance is covered when it is the one wanted, if one is, and runs in a zone wanted, if some
are. -/
theorem covers_iff {s : StatisticId} {i zone : String} : covers s i zone = true ↔
    (∀ wanted, s.instanceId = some wanted → wanted = i) ∧ ∀ z, s.zone = some z → zone ∈ z := by
  cases s with
  | mk _ _ _ instanceId z => cases instanceId <;> cases z <;> simp [covers]

theorem mem_inScope {r : Roster} {s : StatisticId} {i : String} :
    i ∈ r.inScope s ↔ ∃ zone, r.zoneOf? i = some zone ∧ covers s i zone = true := by
  simp only [inScope, List.mem_map, List.mem_filter, Prod.exists, exists_and_right,
    exists_eq_right, Std.ExtTreeMap.mem_toList_iff_getElem?_eq_some]
  rfl

end Roster

end Autoscaler
