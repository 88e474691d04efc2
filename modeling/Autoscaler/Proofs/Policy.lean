import Autoscaler.Capacity.Lemmas
import Autoscaler.Policy
import Mathlib.Tactic.SplitIfs

/-!
# Policies without fault

What it takes for a policy to have no fault, as a conjunction of conditions on its parts.
-/

namespace Autoscaler.Policy

/-- Everything that is asked of a policy. -/
structure Sound (p : Policy) : Prop where
  rules : p.rules ≠ []
  distinct : repeatedRule? p.rules = none
  increase : p.increaseStep ≠ 0
  decrease : p.decreaseStep ≠ 0
  most : p.maxCapacity ≠ 0
  least : p.minCapacity ≠ 0
  least_le_most : p.minCapacity ≤ p.maxCapacity
  ordered : ∀ r ∈ p.rules, r.isInverted = false

theorem fault?_eq_none {p : Policy} : p.fault? = none ↔ p.Sound := by
  constructor
  · intro sound
    rw [fault?] at sound
    split at sound
    · cases sound
    rename_i rules
    split at sound
    · cases sound
    rename_i repeated
    split_ifs at sound with increase decrease most least
    split at sound
    · cases sound
    rename_i exceeding
    simp only [Option.map_eq_none_iff, List.find?_eq_none] at sound
    simp only [Capacity.isZero_iff] at increase decrease most least
    exact ⟨rules, repeated, increase, decrease, most, least,
      Capacity.firstExceeding?_eq_none.mp exceeding, fun r mem => by simpa using sound r mem⟩
  · intro sound
    have inverted : p.rules.find? Rule.isInverted = none :=
      List.find?_eq_none.mpr fun r mem => by simp [sound.ordered r mem]
    simp [fault?, sound.rules, sound.distinct, Capacity.isZero_iff, sound.increase, sound.decrease,
      sound.most, sound.least, Capacity.firstExceeding?_eq_none.mpr sound.least_le_most, inverted]

end Autoscaler.Policy
