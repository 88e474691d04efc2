import Autoscaler.Capacity.Basic
import Mathlib.Algebra.Order.Ring.Nat

/-!
# Capacity as a function of its dimensions

Each operation is described by `get`, two capacities with the same `get` are equal, and what is listed
of a capacity are its positive amounts by name. Taking a sum of capacities from a capacity takes off
the exact sum, since no amount exceeds the limit (`get_sub_sum`). The orders `≤` and `firstExceeding?`
are tied to comparisons of amounts.
-/

namespace Autoscaler.Capacity

theorem get_eq (c : Capacity) (d : String) : c.get d = c.amounts[d]?.getD 0 := by
  simp [get, Std.ExtTreeMap.getD_eq_getD_getElem?]

theorem get_le (c : Capacity) (d : String) : c.get d ≤ maxAmount := by
  rw [get_eq]
  cases found : c.amounts[d]? with
  | none => simp
  | some n => exact (c.amount_mem d n found).2

theorem mem_dimensions {c : Capacity} {d : String} : d ∈ c.dimensions ↔ 0 < c.get d := by
  rw [dimensions, Std.ExtTreeMap.mem_keys, get_eq, Std.ExtTreeMap.mem_iff_isSome_getElem?]
  cases found : c.amounts[d]? with
  | none => simp
  | some n => simpa using (c.amount_mem d n found).1

theorem mem_toList {c : Capacity} {d : String} {n : Nat} :
    (d, n) ∈ c.toList ↔ n = c.get d ∧ n ≠ 0 := by
  rw [toList, Std.ExtTreeMap.mem_toList_iff_getElem?_eq_some, get_eq]
  cases found : c.amounts[d]? with
  | none =>
    rw [Option.getD_none]
    simp
  | some m =>
    have positive := (c.amount_mem d m found).1
    rw [Option.some.injEq, Option.getD_some]
    omega

theorem ascending_dimensions (c : Capacity) : c.dimensions.Pairwise (· < ·) := by
  have ordered : c.dimensions.Pairwise (compare · · = .lt) := Std.ExtTreeMap.ordered_keys
  exact ordered.imp compareOfLessAndEq_eq_lt.mp

theorem ascending_toList (c : Capacity) : c.toList.Pairwise fun e o => e.1 < o.1 := by
  have ordered : c.toList.Pairwise fun e o => compare e.1 o.1 = .lt :=
    Std.ExtTreeMap.ordered_keys_toList
  exact ordered.imp compareOfLessAndEq_eq_lt.mp

/-- A capacity is determined by its amounts. -/
@[ext] theorem ext {a b : Capacity} (same : ∀ d, a.get d = b.get d) : a = b := by
  obtain ⟨ma, ha⟩ := a
  obtain ⟨mb, hb⟩ := b
  have : ma = mb := by
    refine Std.ExtTreeMap.ext_getElem? fun d => ?_
    have s := same d
    rw [get_eq, get_eq] at s
    cases ea : ma[d]? with
    | none =>
      cases eb : mb[d]? with
      | none => rfl
      | some n => have := (hb d n eb).1; simp [ea, eb] at s; omega
    | some n =>
      have positive := (ha d n ea).1
      cases eb : mb[d]? with
      | none => simp [ea, eb] at s; omega
      | some k => simpa [ea, eb] using s
  subst this
  rfl

theorem get_ofFn (names : List String) (f : String → Nat) (d : String) :
    (ofFn names f).get d = if d ∈ names then min (f d) maxAmount else 0 := by
  rw [get_eq, ofFn, getElem?_collect]
  by_cases listed : d ∈ names <;> by_cases none : f d = 0 <;> simp [listed, none]

/-- Names that are not listed do not matter where nothing is given to them. -/
theorem get_ofFn_of_forall {names : List String} {f : String → Nat}
    (listed : ∀ d, d ∉ names → f d = 0) (d : String) : (ofFn names f).get d = min (f d) maxAmount := by
  rw [get_ofFn]
  by_cases mem : d ∈ names
  · rw [if_pos mem]
  · rw [if_neg mem, listed d mem, Nat.zero_min]

@[simp] theorem get_zero (d : String) : (0 : Capacity).get d = 0 := by
  change (ofFn [] _).get d = 0
  simp [get_ofFn]

theorem get_zipWith (f : Nat → Nat → Nat) (h : f 0 0 = 0) (a b : Capacity) (d : String) :
    (zipWith f a b).get d = min (f (a.get d) (b.get d)) maxAmount := by
  rw [zipWith, get_ofFn_of_forall]
  intro o other
  simp only [List.mem_append, mem_dimensions, not_or, Nat.not_lt, Nat.le_zero] at other
  rw [other.1, other.2, h]

@[simp] theorem get_add (a b : Capacity) (d : String) :
    (a + b).get d = min (a.get d + b.get d) maxAmount :=
  get_zipWith _ rfl a b d

@[simp] theorem get_sub (a b : Capacity) (d : String) : (a - b).get d = a.get d - b.get d := by
  have kept := a.get_le d
  change (zipWith _ a b).get d = _
  rw [get_zipWith _ rfl]
  omega

@[simp] theorem get_min (a b : Capacity) (d : String) :
    (min a b).get d = min (a.get d) (b.get d) := by
  have kept := a.get_le d
  change (zipWith _ a b).get d = _
  rw [get_zipWith _ rfl]
  omega

@[simp] theorem get_max (a b : Capacity) (d : String) :
    (max a b).get d = max (a.get d) (b.get d) := by
  have keptA := a.get_le d
  have keptB := b.get_le d
  change (zipWith _ a b).get d = _
  rw [get_zipWith _ rfl]
  omega

theorem get_single (d : String) (n : Nat) (other : String) :
    (single d n).get other = if other = d then min n maxAmount else 0 := by
  rw [single, ofPairs, get_ofFn]
  by_cases same : other = d
  · simp [same]
  · simp [same]

theorem get_foldl_add (cs : List Capacity) (first : Capacity) (d : String) :
    (cs.foldl (· + ·) first).get d = min (first.get d + (cs.map fun c => c.get d).sum) maxAmount := by
  induction cs generalizing first with
  | nil =>
    have kept := first.get_le d
    simp [kept]
  | cons c rest ih =>
    rw [List.foldl_cons, ih, get_add, List.map_cons, List.sum_cons]
    omega

/-- The sum of capacities is the exact sum of their amounts as far as it fits. -/
theorem get_sum (cs : List Capacity) (d : String) :
    (sum cs).get d = min (cs.map fun c => c.get d).sum maxAmount := by
  rw [sum, get_foldl_add, get_zero, Nat.zero_add]

/-- What is left of a capacity is the same whether or not the sum taken off was cut at the limit. -/
theorem get_sub_sum (c : Capacity) (cs : List Capacity) (d : String) :
    (c - sum cs).get d = c.get d - (cs.map fun c => c.get d).sum := by
  have kept := c.get_le d
  rw [get_sub, get_sum]
  omega

theorem le_iff {a b : Capacity} : a ≤ b ↔ ∀ d, a.get d ≤ b.get d := Iff.rfl

theorem eq_of_le_of_le {a b : Capacity} (le : a ≤ b) (ge : b ≤ a) : a = b :=
  ext fun d => Nat.le_antisymm (le d) (ge d)

theorem eq_zero_of_le {a b : Capacity} (le : a ≤ b) (zero : b = 0) : a = 0 := by
  ext d
  have none := le d
  rw [zero, get_zero] at none
  rw [get_zero]
  omega

/-- Nothing exceeds exactly when every amount is at most the other's. -/
theorem firstExceeding?_eq_none {a b : Capacity} : a.firstExceeding? b = none ↔ a ≤ b := by
  rw [firstExceeding?, List.find?_eq_none, le_iff]
  constructor
  · intro none d
    by_cases mem : d ∈ a.dimensions
    · simpa using none d mem
    · rw [mem_dimensions] at mem
      omega
  · intro all d _
    simpa using all d

instance (a b : Capacity) : Decidable (a ≤ b) :=
  decidable_of_iff (a.firstExceeding? b = none) firstExceeding?_eq_none

theorem eq_zero_iff {c : Capacity} : c = 0 ↔ ∀ d, c.get d = 0 := by
  constructor
  · rintro rfl d
    exact get_zero d
  · intro none
    ext d
    rw [none, get_zero]

theorem isZero_iff {c : Capacity} : c.isZero = true ↔ c = 0 := by
  constructor
  · intro none
    ext d
    rw [isZero, Std.ExtTreeMap.isEmpty_iff] at none
    rw [get_zero, get_eq, none]
    simp
  · intro none
    subst none
    change (ofFn [] fun _ => 0).isZero = true
    simp [isZero, ofFn, collect]

end Autoscaler.Capacity
