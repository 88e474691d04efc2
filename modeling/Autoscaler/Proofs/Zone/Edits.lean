import Autoscaler.Proofs.Capacity.Sum
import Autoscaler.Proofs.Traversal
import Autoscaler.Proofs.Zone.Totals

/-!
# Edits of allocations

Entries are given one after the other, some in place of others, and now and then all are dropped. What
remains in the end is, for each zone set, the last entry given to it since the last time all were dropped
(`get?_edited`). The total is the sum of what remains, in whatever order it was given and in whatever
order it is gone through (`sums_unordered`).
-/

namespace Autoscaler

/-- What is done to an allocation: a zone set is given an entry, or all entries are dropped. -/
inductive Edit where
  | set (entry : ZoneSet × Capacity)
  | clear

/-- An edit neither drops an entry nor gives its zone set another. -/
def Edit.Spares (e : ZoneSet × Capacity) : Edit → Prop
  | set o => o.1 ≠ e.1
  | clear => False

/-- Edits give an entry and spare it from then on. -/
def Remains (edits : List Edit) (e : ZoneSet × Capacity) : Prop :=
  ∃ before after, edits = before ++ .set e :: after ∧ ∀ later ∈ after, later.Spares e

/-- Entries are those that edits leave, each of them once and in any order. -/
structure Listing (edits : List Edit) (entries : List (ZoneSet × Capacity)) : Prop where
  distinct : entries.Nodup
  mem_iff : ∀ e, e ∈ entries ↔ Remains edits e

namespace Allocation

/-- An allocation after an edit. -/
def edit (a : Allocation) : Edit → Allocation
  | .set e => a.set e.1 e.2
  | .clear => empty

/-- The allocation that is made of a list of entries and then edited. -/
def edited (start : List (ZoneSet × Capacity)) (edits : List Edit) : Allocation :=
  edits.foldl edit (ofList start)

variable {a : Allocation} {edits : List Edit} {e : ZoneSet × Capacity}
  {start entries : List (ZoneSet × Capacity)}

/-! ## What remains -/

theorem not_remains_nil : ¬ Remains [] e := by
  rintro ⟨before, after, split, -⟩
  simp at split

theorem remains_concat {last : Edit} :
    Remains (edits ++ [last]) e ↔ last = .set e ∨ Remains edits e ∧ last.Spares e :=
  exists_split_concat

theorem remains_concat_set {o : ZoneSet × Capacity} :
    Remains (edits ++ [.set o]) e ↔ if o.1 = e.1 then o.2 = e.2 else Remains edits e := by
  rw [remains_concat, Edit.Spares, Edit.set.injEq, Prod.ext_iff]
  by_cases own : o.1 = e.1
  · simp [own]
  · simp [own]

theorem not_remains_concat_clear : ¬ Remains (edits ++ [.clear]) e := by
  simp [remains_concat, Edit.Spares]

theorem get?_foldl_edit : (edits.foldl edit empty).get? e.1 = some e.2 ↔ Remains edits e := by
  induction edits using List.reverseRecOn with
  | nil => simp [not_remains_nil]
  | append_singleton before last ih =>
    rw [List.foldl_append, List.foldl_cons, List.foldl_nil]
    cases last with
    | clear => simp [edit, not_remains_concat_clear]
    | set o =>
      rw [edit, get?_set, remains_concat_set]
      split
      · rw [Option.some.injEq]
      · exact ih

/-- An allocation that is made of a list is one whose entries are set in turn. -/
theorem get?_edited :
    (edited start edits).get? e.1 = some e.2 ↔ Remains (start.map .set ++ edits) e := by
  rw [← get?_foldl_edit, List.foldl_append, List.foldl_map]
  rfl

/-! ## The total of what remains -/

theorem nodup_toList (a : Allocation) : a.toList.Nodup := by
  have distinct : (a.toList.map Prod.fst).Nodup := by
    rw [toList, Std.ExtTreeMap.map_fst_toList_eq_keys]
    exact Std.ExtTreeMap.nodup_keys
  exact distinct.of_map

theorem mem_toList_edited : e ∈ (edited start edits).toList ↔ Remains (start.map .set ++ edits) e :=
  mem_toList.trans get?_edited

theorem listing_iff_perm :
    Listing (start.map .set ++ edits) entries ↔ entries.Perm (edited start edits).toList := by
  constructor
  · intro ⟨distinct, listed⟩
    rw [List.perm_ext_iff_of_nodup distinct (nodup_toList _)]
    exact fun e => (listed e).trans mem_toList_edited.symm
  · intro perm
    exact ⟨perm.nodup_iff.mpr (nodup_toList _), fun e => perm.mem_iff.trans mem_toList_edited⟩

/-- The entries may be gone through in any order. -/
theorem total_edited (listing : Listing (start.map .set ++ edits) entries) :
    (edited start edits).total = Capacity.sum (entries.map Prod.snd) := by
  rw [total, values_entries]
  exact Capacity.sum_perm ((listing_iff_perm.mp listing).map _).symm

/-- Allocations that are made differently are equal when the same entries remain. -/
theorem edited_eq {others : List (ZoneSet × Capacity)} {otherEdits : List Edit}
    (same : ∀ e, Remains (others.map .set ++ otherEdits) e ↔ Remains (start.map .set ++ edits) e) :
    edited others otherEdits = edited start edits := by
  ext z c
  exact get?_edited.trans ((same (z, c)).trans get?_edited.symm)

end Allocation

/-- A sum of capacities is the exact sum as far as it fits, in every dimension, and so is the same in any
order, in any brackets and for any groups summed up first. However an allocation was made, its entries
are those that remain in the end, its total is their sum, gone through in any order, and all allocations
with these entries have this total. What is left of a capacity after another is taken off fits where the
capacity fits together with the other, and the other added again gives the greater of both. -/
theorem sums_unordered (a b c : Capacity) (cs : List Capacity) (start : List (ZoneSet × Capacity))
    (edits : List Edit) :
    (∀ d, (Capacity.sum cs).get d = min (cs.map fun part => part.get d).sum maxAmount) ∧
    ((∀ ds : List Capacity, ds.Perm cs → Capacity.sum ds = Capacity.sum cs) ∧
      (∀ t : Capacity.Bracketing, t.leaves.Perm cs → t.value = Capacity.sum cs) ∧
      ∀ groups : List (List Capacity), groups.flatten.Perm cs →
        Capacity.sum (groups.map Capacity.sum) = Capacity.sum cs) ∧
    (Listing (start.map .set ++ edits) (Allocation.edited start edits).toList ∧
      (∀ entries, Listing (start.map .set ++ edits) entries →
        (Allocation.edited start edits).total = Capacity.sum (entries.map Prod.snd)) ∧
      ∀ others otherEdits, (∀ e, Remains (others.map .set ++ otherEdits) e ↔
          Remains (start.map .set ++ edits) e) →
        (Allocation.edited others otherEdits).total = (Allocation.edited start edits).total) ∧
    (a - b ≤ c ↔ a ≤ b + c) ∧ a - b + b = max a b := by
  refine ⟨Capacity.get_sum cs, ⟨fun ds perm => Capacity.sum_perm perm, fun t perm => ?_,
    fun groups perm => ?_⟩, ⟨Allocation.listing_iff_perm.mpr (.refl _),
    fun entries listing => Allocation.total_edited listing, fun others otherEdits same => ?_⟩,
    Capacity.sub_le_iff_le_add, Capacity.sub_add_eq_max a b⟩
  · rw [t.value_eq_sum, Capacity.sum_perm perm]
  · rw [Capacity.sum_map_sum, Capacity.sum_perm perm]
  · rw [Allocation.edited_eq same]

/-- More memory than fits, together with some for a dimension that not all of them have, in three orders;
and two ways to come to the same entries, one of them after all were dropped. -/
theorem sums_unordered_full :
    let full := Capacity.single "memory" maxAmount
    let more := Capacity.ofPairs [("memory", 2), ("cpu", 1)]
    let few := Capacity.single "cpu" 3
    let cs := [full, more, few]
    let t := Capacity.Bracketing.both (.both (.one few) .nothing) (.both (.one more) (.one full))
    let groups := [[few, full], [], [more]]
    let east := ZoneSet.ofPieces ["east"] (by decide) (by decide)
    let west := ZoneSet.ofPieces ["west"] (by decide) (by decide)
    let start := [(east, few), (west, full), (east, more)]
    let edits := [.clear, .set (west, few), .set (east, full), .set (west, more)]
    let entries := [(west, more), (east, full)]
    cs.reverse.Perm cs ∧ t.leaves.Perm cs ∧ groups.flatten.Perm cs ∧
      Listing (start.map .set ++ edits) entries ∧
      (∀ e, Remains (entries.map .set ++ []) e ↔ Remains (start.map .set ++ edits) e) ∧
      Capacity.sum cs.reverse = Capacity.sum cs ∧ t.value = Capacity.sum cs ∧
      Capacity.sum (groups.map Capacity.sum) = Capacity.sum cs ∧
      (Allocation.edited start edits).total = Capacity.sum [more, full] ∧
      (Allocation.edited entries []).total = (Allocation.edited start edits).total ∧
      (more - full ≤ few ↔ more ≤ full + few) ∧ more - full + full = max more full := by
  intro full more few cs t groups east west start edits entries
  have leaves : t.leaves.Perm cs := by decide +kernel
  have grouped : groups.flatten.Perm cs := by decide +kernel
  have listing : Listing (start.map .set ++ edits) entries :=
    Allocation.listing_iff_perm.mpr (by decide +kernel)
  have other : Listing (entries.map .set ++ []) entries :=
    Allocation.listing_iff_perm.mpr (by decide +kernel)
  have same : ∀ e, Remains (entries.map .set ++ []) e ↔ Remains (start.map .set ++ edits) e :=
    fun e => (other.mem_iff e).symm.trans (listing.mem_iff e)
  obtain ⟨-, ⟨ordered, bracketed, sums⟩, ⟨-, total, totals⟩, fits, again⟩ :=
    sums_unordered more full few cs start edits
  exact ⟨cs.reverse_perm, leaves, grouped, listing, same, ordered _ cs.reverse_perm,
    bracketed t leaves, sums groups grouped, total entries listing, totals entries [] same, fits, again⟩

end Autoscaler
