import Autoscaler.Statistic.Id
import Autoscaler.Statistic.Value
import Std.Data.ExtTreeMap
import Std.Data.ExtTreeSet

/-!
# Snapshots of statistics

The statistics known at one time, one reading for each identifier.
-/

namespace Autoscaler

/-- The value of a statistic and the instances whose samples went into it. -/
structure Reading where
  value : StatValue
  contributors : Std.ExtTreeSet String
deriving DecidableEq

/-- A reading for each of finitely many statistics. -/
structure Snapshot where
  readings : Std.ExtTreeMap StatisticId Reading
deriving DecidableEq

namespace Snapshot

/-- No readings. -/
def empty : Snapshot := ⟨∅⟩

/-- Adds a reading in place of any other of the same statistic. -/
def insert (s : Snapshot) (id : StatisticId) (r : Reading) : Snapshot := ⟨s.readings.insert id r⟩

/-- The readings of a list, the last one standing for a repeated statistic. -/
def ofList (samples : List (StatisticId × Reading)) : Snapshot :=
  samples.foldl (fun s e => s.insert e.1 e.2) empty

/-- The reading of a statistic. -/
def get? (s : Snapshot) (id : StatisticId) : Option Reading := s.readings[id]?

/-- How many statistics have a reading. -/
def size (s : Snapshot) : Nat := s.readings.size

/-- The readings in ascending order of the identifiers' texts. -/
def toList (s : Snapshot) : List (StatisticId × Reading) :=
  s.readings.toList.mergeSort fun a b => a.1.text ≤ b.1.text

/-- A snapshot is determined by its readings. -/
@[ext] theorem ext {a b : Snapshot} (same : ∀ id, a.get? id = b.get? id) : a = b := by
  obtain ⟨ma⟩ := a
  obtain ⟨mb⟩ := b
  have : ma = mb := Std.ExtTreeMap.ext_getElem? same
  rw [this]

@[simp] theorem get?_empty (id : StatisticId) : empty.get? id = none :=
  Std.ExtTreeMap.getElem?_empty

@[simp] theorem get?_insert (s : Snapshot) (id other : StatisticId) (r : Reading) :
    (s.insert id r).get? other = if id = other then some r else s.get? other := by
  simp only [get?, insert, Std.ExtTreeMap.getElem?_insert, Std.LawfulEqCmp.compare_eq_iff_eq]

end Snapshot

end Autoscaler
