import Autoscaler.Capacity.Basic
import Autoscaler.Zone.ZoneSet

/-!
# Allocations

How much capacity each zone set holds, as enforced so far or as planned.
-/

namespace Autoscaler

/-- A capacity for each of finitely many zone sets. -/
structure Allocation where
  entries : Std.ExtTreeMap ZoneSet Capacity
deriving DecidableEq

namespace Allocation

/-- No zone set has an entry. -/
def empty : Allocation := ⟨∅⟩

/-- The capacity of a zone set, none where it has no entry. -/
def get (a : Allocation) (z : ZoneSet) : Capacity := a.entries.getD z 0

/-- The entry of a zone set. -/
def get? (a : Allocation) (z : ZoneSet) : Option Capacity := a.entries[z]?

/-- Gives a zone set an entry in place of any it had. -/
def set (a : Allocation) (z : ZoneSet) (c : Capacity) : Allocation := ⟨a.entries.insert z c⟩

/-- Whether a zone set has an entry, if only of no capacity. -/
def contains (a : Allocation) (z : ZoneSet) : Bool := a.entries.contains z

/-- The entries in ascending order of the zone sets. -/
def toList (a : Allocation) : List (ZoneSet × Capacity) := a.entries.toList

/-- The entries of a list, the last one standing for a repeated zone set. -/
def ofList (entries : List (ZoneSet × Capacity)) : Allocation :=
  entries.foldl (fun a e => a.set e.1 e.2) empty

/-- Whether there is no entry. -/
def isEmpty (a : Allocation) : Bool := a.entries.isEmpty

/-- The sum over all entries. -/
def total (a : Allocation) : Capacity := Capacity.sum a.entries.values

/-! ## The entries after each operation -/

/-- An allocation is determined by its entries. -/
@[ext] theorem ext {a b : Allocation} (same : ∀ z, a.get? z = b.get? z) : a = b := by
  obtain ⟨ma⟩ := a
  obtain ⟨mb⟩ := b
  have : ma = mb := Std.ExtTreeMap.ext_getElem? same
  rw [this]

theorem get_eq (a : Allocation) (z : ZoneSet) : a.get z = (a.get? z).getD 0 :=
  Std.ExtTreeMap.getD_eq_getD_getElem?

theorem contains_eq (a : Allocation) (z : ZoneSet) : a.contains z = (a.get? z).isSome :=
  Std.ExtTreeMap.contains_eq_isSome_getElem?

theorem mem_toList {a : Allocation} {z : ZoneSet} {c : Capacity} :
    (z, c) ∈ a.toList ↔ a.get? z = some c :=
  Std.ExtTreeMap.mem_toList_iff_getElem?_eq_some

@[simp] theorem get?_empty (z : ZoneSet) : empty.get? z = none := Std.ExtTreeMap.getElem?_empty

@[simp] theorem get?_set (a : Allocation) (z other : ZoneSet) (c : Capacity) :
    (a.set z c).get? other = if z = other then some c else a.get? other := by
  simp only [get?, set, Std.ExtTreeMap.getElem?_insert, Std.LawfulEqCmp.compare_eq_iff_eq]

@[simp] theorem get_set (a : Allocation) (z other : ZoneSet) (c : Capacity) :
    (a.set z c).get other = if z = other then c else a.get other := by
  rw [get_eq, get?_set, get_eq]
  split <;> rfl

/-- Of a list, each zone set keeps its last entry. -/
theorem get?_ofList (entries : List (ZoneSet × Capacity)) (z : ZoneSet) :
    (ofList entries).get? z = (entries.reverse.find? (·.1 = z)).map Prod.snd := by
  have added : ∀ a : Allocation, (entries.foldl (fun a e => a.set e.1 e.2) a).get? z =
      ((entries.reverse.find? (·.1 = z)).map Prod.snd).or (a.get? z) := by
    induction entries with
    | nil => intro a; rfl
    | cons e rest ih =>
      intro a
      rw [List.foldl_cons, ih, get?_set, List.reverse_cons, List.find?_append]
      cases rest.reverse.find? (·.1 = z) with
      | some found => rfl
      | none => by_cases same : e.1 = z <;> simp [same]
  rw [ofList, added, get?_empty, Option.or_none]

end Allocation

end Autoscaler
