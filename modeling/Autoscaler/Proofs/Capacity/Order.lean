import Autoscaler.Capacity.Lemmas
import Mathlib.Data.String.Basic

/-!
# Orders of capacities

`firstExceeding?` looks at the dimensions of its left side only, and `dominates` at those of both
sides, some of them twice. Both decide about all names, those without an amount included: the first is
a partial order with a name for what stands against it, the second a strict order below it
(`orders_amountwise`).
-/

namespace Autoscaler.Capacity

variable {a b c : Capacity} {d : String}

/-- What exceeds is named by its least dimension. -/
theorem firstExceeding?_eq_some : a.firstExceeding? b = some d ↔
    b.get d < a.get d ∧ ∀ o, b.get o < a.get o → d ≤ o := by
  have listed : ∀ o, b.get o < a.get o → o ∈ a.dimensions := by
    intro o more
    rw [mem_dimensions]
    omega
  have ascending := a.ascending_dimensions
  rw [firstExceeding?, List.find?_eq_some_iff_append]
  constructor
  · rintro ⟨more, before, after, split, within⟩
    rw [split, List.pairwise_append, List.pairwise_cons] at ascending
    refine ⟨by simpa using more, fun o exceeds => ?_⟩
    have mem := listed o exceeds
    rw [split, List.mem_append, List.mem_cons] at mem
    rcases mem with earlier | rfl | later
    · simpa [exceeds] using within o earlier
    · exact le_refl o
    · exact le_of_lt (ascending.2.1.1 o later)
  · rintro ⟨more, least⟩
    obtain ⟨before, after, split⟩ := List.append_of_mem (listed d more)
    rw [split, List.pairwise_append] at ascending
    refine ⟨by simpa using more, before, after, split, fun o earlier => ?_⟩
    have precedes : o < d := ascending.2.2 o earlier d List.mem_cons_self
    have within : ¬ b.get o < a.get o := fun exceeds => not_le_of_gt precedes (least o exceeds)
    simpa using within

theorem exists_pos_of_ne_zero (some : a ≠ 0) : ∃ d, 0 < a.get d := by
  simpa [eq_zero_iff, Nat.pos_iff_ne_zero] using some

theorem dominates_iff : a.dominates b = true ↔
    a ≠ 0 ∧ ∀ d, d ∈ a.dimensions ∨ d ∈ b.dimensions → b.get d < a.get d := by
  have names : a.dominates b = true ↔ a.dimensions ++ b.dimensions ≠ [] ∧
      ∀ d ∈ a.dimensions ++ b.dimensions, b.get d < a.get d := by
    simp only [dominates, Bool.and_eq_true, Bool.not_eq_true', List.isEmpty_eq_false_iff,
      List.all_eq_true, decide_eq_true_eq]
  simp only [names, List.mem_append]
  refine and_congr_left fun more => ?_
  constructor
  · rintro any rfl
    obtain ⟨d, mem⟩ := List.exists_mem_of_ne_nil _ any
    have exceeds := more d (List.mem_append.mp mem)
    rw [get_zero] at exceeds
    omega
  · intro some
    obtain ⟨d, positive⟩ := exists_pos_of_ne_zero some
    exact List.ne_nil_of_mem (List.mem_append_left _ (mem_dimensions.mpr positive))

theorem get_lt_of_dominates (more : a.dominates b = true) (positive : 0 < a.get d) :
    b.get d < a.get d :=
  (dominates_iff.mp more).2 d (.inl (mem_dimensions.mpr positive))

theorem le_of_dominates (more : a.dominates b = true) : b ≤ a := by
  intro d
  by_cases listed : d ∈ b.dimensions
  · exact Nat.le_of_lt ((dominates_iff.mp more).2 d (.inr listed))
  · rw [mem_dimensions] at listed
    omega

theorem dominates_self (a : Capacity) : a.dominates a = false := by
  rw [← Bool.not_eq_true]
  intro more
  obtain ⟨d, positive⟩ := exists_pos_of_ne_zero (dominates_iff.mp more).1
  exact Nat.lt_irrefl _ (get_lt_of_dominates more positive)

theorem dominates_trans (first : a.dominates b = true) (second : b.dominates c = true) :
    a.dominates c = true := by
  rw [dominates_iff]
  refine ⟨(dominates_iff.mp first).1, fun d listed => ?_⟩
  have within := le_of_dominates second d
  have positive : 0 < a.get d := by
    rcases listed with own | other
    · exact mem_dimensions.mp own
    · have below := le_of_dominates first d
      have amount := mem_dimensions.mp other
      omega
  have exceeds := get_lt_of_dominates first positive
  omega

/-- What dominates exceeds in every dimension, so it does first in its least one. -/
theorem firstExceeding?_of_dominates (more : a.dominates b = true) :
    ∃ d, a.firstExceeding? b = some d ∧ d ∈ a.dimensions ∧ ∀ o ∈ a.dimensions, d ≤ o := by
  cases found : a.firstExceeding? b with
  | none =>
    obtain ⟨d, positive⟩ := exists_pos_of_ne_zero (dominates_iff.mp more).1
    have exceeds := get_lt_of_dominates more positive
    have within := firstExceeding?_eq_none.mp found d
    omega
  | some d =>
    obtain ⟨exceeds, least⟩ := firstExceeding?_eq_some.mp found
    refine ⟨d, rfl, mem_dimensions.mpr (by omega), fun o listed => ?_⟩
    exact least o (get_lt_of_dominates more (mem_dimensions.mp listed))

/-- Nothing is named as exceeding exactly when no amount is greater, and else it is the least name whose
amount is. One capacity dominates another when it has something and has more in every dimension of
either; no capacity dominates itself, and what dominates a capacity dominates all that this one does.
Where one dominates, the other exceeds it nowhere, and it exceeds the other first in its own least
dimension. Two capacities of which neither exceeds the other are equal. -/
theorem orders_amountwise (a b c : Capacity) :
    (a.firstExceeding? b = none ↔ ∀ d, a.get d ≤ b.get d) ∧
    (∀ d, a.firstExceeding? b = some d ↔
      b.get d < a.get d ∧ ∀ o, b.get o < a.get o → d ≤ o) ∧
    (a.dominates b = true ↔
      a ≠ 0 ∧ ∀ d, d ∈ a.dimensions ∨ d ∈ b.dimensions → b.get d < a.get d) ∧
    a.dominates a = false ∧
    (a.dominates b = true → b.dominates c = true → a.dominates c = true) ∧
    (a.dominates b = true → b.firstExceeding? a = none ∧
      ∃ d, a.firstExceeding? b = some d ∧ d ∈ a.dimensions ∧ ∀ o ∈ a.dimensions, d ≤ o) ∧
    (a.firstExceeding? b = none → b.firstExceeding? a = none → a = b) := by
  refine ⟨firstExceeding?_eq_none, fun _ => firstExceeding?_eq_some, dominates_iff,
    dominates_self a, dominates_trans, ?_, ?_⟩
  · intro more
    exact ⟨firstExceeding?_eq_none.mpr (le_of_dominates more), firstExceeding?_of_dominates more⟩
  · intro within without
    exact eq_of_le_of_le (firstExceeding?_eq_none.mp within) (firstExceeding?_eq_none.mp without)

/-- Ten of two things dominate five of each, and these dominate one of one thing. Spelled in another
order and in parts, the ten of each are the same capacity. -/
theorem orders_amountwise_nested :
    let ten := ofPairs [("memory", 10), ("cpu", 10)]
    let five := ofPairs [("cpu", 5), ("memory", 5)]
    let one := single "memory" 1
    let parts := ofPairs [("cpu", 4), ("memory", 10), ("cpu", 6), ("disk", 0)]
    ten.dominates five = true ∧ five.dominates one = true ∧ ten.dominates one = true ∧
      five.firstExceeding? ten = none ∧
      (∃ d, ten.firstExceeding? five = some d ∧ d ∈ ten.dimensions ∧ ∀ o ∈ ten.dimensions, d ≤ o) ∧
      ten.firstExceeding? parts = none ∧ parts.firstExceeding? ten = none ∧ ten = parts := by
  intro ten five one parts
  have first : ten.dominates five = true := by decide +kernel
  have second : five.dominates one = true := by decide +kernel
  have within : ten.firstExceeding? parts = none := by decide +kernel
  have without : parts.firstExceeding? ten = none := by decide +kernel
  obtain ⟨-, -, -, -, trans, exceeds, -⟩ := orders_amountwise ten five one
  obtain ⟨-, -, -, -, -, -, equal⟩ := orders_amountwise ten parts one
  exact ⟨first, second, trans first second, (exceeds first).1, (exceeds first).2, within, without,
    equal within without⟩

/-- What one side lacks stands against its dominating the other. -/
example : (single "memory" 10).dominates (ofPairs [("memory", 5), ("cpu", 1)]) = false ∧
    (single "memory" 10).firstExceeding? (ofPairs [("memory", 5), ("cpu", 1)]) = some "memory" ∧
    (0 : Capacity).dominates 0 = false := by decide +kernel

end Autoscaler.Capacity
