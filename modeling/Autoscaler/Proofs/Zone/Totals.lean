import Autoscaler.Capacity.Lemmas
import Autoscaler.Zone.Allocation
import Mathlib.Algebra.Order.BigOperators.Group.Finset
import Mathlib.Algebra.Order.Ring.Nat

/-!
# Exact totals

Sums of amounts over zone sets that have no limit, beside the sum of capacities, which stops at
`maxAmount`. The total of an allocation is its exact total as far as it fits (`get_total`).
-/

namespace Autoscaler

theorem getElem?_foldl_insert {β : Type} (zones : List ZoneSet) (f : ZoneSet → β)
    (m : Std.ExtTreeMap ZoneSet β) (z : ZoneSet) :
    (zones.foldl (fun m z => m.insert z (f z)) m)[z]? = if z ∈ zones then some (f z) else m[z]? := by
  induction zones generalizing m with
  | nil => simp
  | cons o rest ih =>
    rw [List.foldl_cons, ih, Std.ExtTreeMap.getElem?_insert]
    by_cases later : z ∈ rest
    · simp [later]
    · by_cases same : o = z
      · simp [same]
      · simp [later, same, Ne.symm same]

theorem Allocation.get?_foldl_set (zones : List ZoneSet) (f : ZoneSet → Capacity) (a : Allocation)
    (z : ZoneSet) : (zones.foldl (fun a z => a.set z (f z)) a).get? z =
      if z ∈ zones then some (f z) else a.get? z := by
  have entries : (zones.foldl (fun a z => a.set z (f z)) a).entries =
      zones.foldl (fun m z => m.insert z (f z)) a.entries :=
    (List.foldl_hom Allocation.entries fun _ _ => rfl).symm
  rw [get?, entries, getElem?_foldl_insert]
  rfl

theorem Allocation.get?_ofList_map (zones : List ZoneSet) (f : ZoneSet → Capacity) (z : ZoneSet) :
    (Allocation.ofList (zones.map fun z => (z, f z))).get? z =
      if z ∈ zones then some (f z) else none := by
  rw [ofList, List.foldl_map, get?_foldl_set, get?_empty]

theorem Allocation.get_ofList_map {zones : List ZoneSet} {z : ZoneSet} (mem : z ∈ zones)
    (f : ZoneSet → Capacity) : (Allocation.ofList (zones.map fun z => (z, f z))).get z = f z := by
  rw [get_eq, get?_ofList_map, if_pos mem, Option.getD_some]

/-- The exact sum of what an allocation gives to the distinct zone sets of a list. -/
def Allocation.sumOver (a : Allocation) (zones : List ZoneSet) (d : String) : Nat :=
  ∑ z ∈ zones.toFinset, (a.get z).get d

/-- The exact sum of a dimension over all entries of an allocation. -/
def Allocation.exactTotal (a : Allocation) (d : String) : Nat :=
  (a.entries.values.map fun c => c.get d).sum

namespace Allocation

theorem get_total (a : Allocation) (d : String) : a.total.get d = min (a.exactTotal d) maxAmount :=
  Capacity.get_sum _ d

theorem values_entries (a : Allocation) : a.entries.values = a.toList.map Prod.snd := by
  have folded : a.entries.values = a.entries.foldr (fun _ c cs => c :: cs) [] := by
    obtain ⟨⟨⟨entries⟩⟩⟩ := a
    induction entries using Quotient.inductionOn with
    | h entries => rfl
  rw [folded, Std.ExtTreeMap.foldr_eq_foldr_toList, List.map_eq_foldr]
  rfl

/-- When only zone sets of a list have entries, the sum over all entries is the one over the list. -/
theorem exactTotal_eq_sumOver {a : Allocation} {zones : List ZoneSet}
    (within : ∀ z c, a.get? z = some c → z ∈ zones) (d : String) :
    a.exactTotal d = a.sumOver zones d := by
  have held : a.toList.map (fun e => e.2.get d) = a.toList.map (fun e => (a.get e.1).get d) := by
    refine List.map_congr_left fun e listed => ?_
    rw [get_eq, mem_toList.mp listed, Option.getD_some]
  have keys : a.entries.keys.toFinset ⊆ zones.toFinset := by
    intro z mem
    rw [List.mem_toFinset, Std.ExtTreeMap.mem_keys, Std.ExtTreeMap.mem_iff_isSome_getElem?] at mem
    obtain ⟨c, found⟩ := Option.isSome_iff_exists.mp mem
    exact List.mem_toFinset.mpr (within z c found)
  calc a.exactTotal d
      = (a.entries.keys.map fun z => (a.get z).get d).sum := by
        rw [exactTotal, values_entries, List.map_map, ← Std.ExtTreeMap.map_fst_toList_eq_keys,
          List.map_map]
        exact congrArg List.sum held
    _ = ∑ z ∈ a.entries.keys.toFinset, (a.get z).get d :=
        (List.sum_toFinset _ Std.ExtTreeMap.nodup_keys).symm
    _ = a.sumOver zones d := by
        refine Finset.sum_subset keys fun z _ absent => ?_
        have none : a.get? z = none := by
          rw [List.mem_toFinset, Std.ExtTreeMap.mem_keys,
            Std.ExtTreeMap.mem_iff_isSome_getElem?] at absent
          exact Option.not_isSome_iff_eq_none.mp absent
        rw [get_eq, none, Option.getD_none, Capacity.get_zero]

end Allocation

theorem sum_filter_ne (zones : List ZoneSet) (distinct : zones.Nodup) (z : ZoneSet)
    (f : ZoneSet → Nat) :
    ((zones.filter (· ≠ z)).map f).sum = ∑ o ∈ zones.toFinset.erase z, f o := by
  have same : zones.toFinset.erase z = (zones.filter (· ≠ z)).toFinset := by
    ext o
    simp [and_comm]
  rw [same, List.sum_toFinset f (distinct.filter _)]

end Autoscaler
