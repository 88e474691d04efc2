import Autoscaler.Enforcement.Evaluation
import Autoscaler.Proofs.Number.Rounding
import Autoscaler.Proofs.Policy

/-!
# Standings

A value is held against the low threshold of a rule first. Where it is never both below the low and
above the high one, the other way round gives the same standing. Thresholds of a policy without fault
are in order, but integers, texts and numbers have orders of their own. That of the integers agrees
with that of the numbers (`place_ofInt_mono`), that of the texts may not. Two texts beside one number
therefore have to be numbers in the order of the texts (`Coherent`), and nothing else is needed
(`not_below_and_above`).
-/

namespace Autoscaler

/-- Rounding keeps the order of integers. -/
theorem Binary64.place_ofInt_mono {m n : Int} (le : m ≤ n) :
    place (m < 0) (.nearest m.natAbs 1) ≤ place (n < 0) (.nearest n.natAbs 1) := by
  have ordered : ∀ {a b : Nat}, a ≤ b →
      (Magnitude.nearest a 1).rank ≤ (Magnitude.nearest b 1).rank := by
    intro a b le
    have ranks := Magnitude.nearestRank_mono Nat.one_pos Nat.one_pos (Nat.mul_le_mul_right 1 le)
    simp only [Magnitude.nearest]
    omega
  by_cases first : m < 0
  · by_cases second : n < 0
    · have ranks := ordered (a := n.natAbs) (b := m.natAbs) (by omega)
      simp only [place, first, second, decide_true, if_true]
      omega
    · simp only [place, first, second, decide_true, decide_false, if_true]
      simp
  · have second : ¬ n < 0 := by omega
    have ranks := ordered (a := m.natAbs) (b := n.natAbs) (by omega)
    simp only [place, first, second, decide_false]
    simpa using ranks

namespace StatValue

variable {a b : StatValue} {o : Ordering}

/-- The place of a value on the line of numbers. -/
def place? (a : StatValue) : Option Int :=
  match a.numeric with
  | .ok (.signed s m) => some (Binary64.place s m)
  | _ => none

/-- A text. -/
def isText : StatValue → Bool
  | .text _ => true
  | _ => false

/-- An integer. -/
def isInteger : StatValue → Bool
  | .integer _ => true
  | _ => false

/-- Two values that are compared as numbers. -/
def Mixed (a b : StatValue) : Prop :=
  ¬ (a.isText = true ∧ b.isText = true) ∧ ¬ (a.isInteger = true ∧ b.isInteger = true)

/-- Two values have the same order as numbers as they have otherwise, or are equal as numbers. -/
def Agree (a b : StatValue) : Prop :=
  a.numericOrder b = a.order b ∨ a.numericOrder b = .ok .eq

theorem numericOrder_eq_ok : a.numericOrder b = .ok o ↔
    ∃ x y, a.place? = some x ∧ b.place? = some y ∧ compare x y = o := by
  cases first : a.numeric with
  | error fault => simp [numericOrder, place?, first, bind, Except.bind]
  | ok x =>
    cases second : b.numeric with
    | error fault => simp [numericOrder, place?, first, second, bind, Except.bind]
    | ok y =>
      cases x <;> cases y <;>
        simp [numericOrder, place?, first, second, bind, Except.bind, Binary64.order?, pure, Except.pure]

theorem order_of_mixed (mixed : Mixed a b) : a.order b = a.numericOrder b := by
  cases a <;> cases b
  case integer.integer => simp [Mixed, isInteger] at mixed
  case text.text => simp [Mixed, isText] at mixed
  all_goals rfl

theorem place?_integer (n : Int64) :
    (integer n).place? = some (Binary64.place (n.toInt < 0) (.nearest n.toInt.natAbs 1)) := rfl

/-- Values agree unless both are texts. -/
theorem agree_of_not_texts (apart : ¬ (a.isText = true ∧ b.isText = true)) : Agree a b := by
  by_cases integers : a.isInteger = true ∧ b.isInteger = true
  · cases a <;> cases b <;> simp [isInteger] at integers
    rename_i m n
    have numbers : (integer m).numericOrder (integer n) = .ok (compare
        (Binary64.place (m.toInt < 0) (.nearest m.toInt.natAbs 1))
        (Binary64.place (n.toInt < 0) (.nearest n.toInt.natAbs 1))) :=
      numericOrder_eq_ok.mpr ⟨_, _, place?_integer m, place?_integer n, rfl⟩
    rw [Agree, order, numbers, Except.ok.injEq, Except.ok.injEq]
    rcases Int.lt_trichotomy m.toInt n.toInt with less | same | more
    · rcases Int.lt_or_eq_of_le (Binary64.place_ofInt_mono (Int.le_of_lt less)) with places | places
      · exact .inl (by rw [Int.compare_eq_lt.mpr less, Int.compare_eq_lt.mpr places])
      · exact .inr (Int.compare_eq_eq.mpr places)
    · exact .inr (Int.compare_eq_eq.mpr (by rw [same]))
    · rcases Int.lt_or_eq_of_le (Binary64.place_ofInt_mono (Int.le_of_lt more)) with places | places
      · exact .inl (by rw [Int.compare_eq_gt.mpr more, Int.compare_eq_gt.mpr places])
      · exact .inr (Int.compare_eq_eq.mpr places.symm)
  · exact .inl (order_of_mixed ⟨apart, integers⟩).symm

theorem compare_gt_of_below_of_above {α : Type} [Ord α] [Std.TransOrd α] {low high v : α}
    (below : compare v low = .lt) (above : compare v high = .gt) : compare low high = .gt :=
  Std.TransCmp.gt_trans (Std.OrientedCmp.gt_of_lt below) above

/-- Values that agree are ordered as numbers too, unless they are compared as something else and are
equal as numbers. -/
theorem Agree.places (agree : Agree a b) (ordered : a.order b = .ok o) :
    ∃ x y, a.place? = some x ∧ b.place? = some y ∧
      (compare x y = o ∨ x = y ∧ ¬ Mixed a b) := by
  by_cases numbers : a.numericOrder b = .ok o
  · obtain ⟨x, y, first, second, places⟩ := numericOrder_eq_ok.mp numbers
    exact ⟨x, y, first, second, .inl places⟩
  · rcases agree with same | equal
    · exact absurd (same.trans ordered) numbers
    · obtain ⟨x, y, first, second, places⟩ := numericOrder_eq_ok.mp equal
      refine ⟨x, y, first, second, .inr ⟨Int.compare_eq_eq.mp places, fun mixed => ?_⟩⟩
      exact numbers (order_of_mixed mixed ▸ ordered)

variable {low high v : StatValue}

theorem kinds (low high v : StatValue) :
    v.isText = true ∧ low.isText = true ∧ high.isText = true ∨
      v.isInteger = true ∧ low.isInteger = true ∧ high.isInteger = true ∨
      Mixed v low ∨ Mixed v high := by
  cases v <;> cases low <;> cases high <;> simp [Mixed, isText, isInteger]

/-- Where two of three values are texts, every two of the three agree. -/
def Coherent (low high v : StatValue) : Prop :=
  [low, high, v].countP isText = 2 → v.Agree low ∧ v.Agree high ∧ low.Agree high

theorem Coherent.agree (coherent : Coherent low high v) (mixed : Mixed v low ∨ Mixed v high) :
    v.Agree low ∧ v.Agree high ∧ low.Agree high := by
  by_cases two : [low, high, v].countP isText = 2
  · exact coherent two
  · -- Three texts are not mixed, so there is at most one.
    have pairs : ¬ (v.isText = true ∧ low.isText = true) ∧ ¬ (v.isText = true ∧ high.isText = true) ∧
        ¬ (low.isText = true ∧ high.isText = true) := by
      cases first : v.isText <;> cases second : low.isText <;> cases third : high.isText <;>
        simp_all [Mixed]
    exact ⟨agree_of_not_texts pairs.1, agree_of_not_texts pairs.2.1, agree_of_not_texts pairs.2.2⟩

/-- A value below one and above another is a sign that the first is above the second. -/
theorem order_eq_gt (coherent : Coherent low high v) (below : v.order low = .ok .lt)
    (above : v.order high = .ok .gt) : low.order high = .ok .gt := by
  rcases kinds low high v with texts | integers | mixed
  · cases v <;> cases low <;> cases high <;> simp [isText] at texts
    simp only [order, Except.ok.injEq] at below above ⊢
    exact compare_gt_of_below_of_above below above
  · cases v <;> cases low <;> cases high <;> simp [isInteger] at integers
    simp only [order, Except.ok.injEq] at below above ⊢
    exact compare_gt_of_below_of_above below above
  · obtain ⟨first, second, thresholds⟩ := coherent.agree mixed
    obtain ⟨x, l, placed, placedLow, under⟩ := first.places below
    obtain ⟨x', h, placed', placedHigh, beyond⟩ := second.places above
    obtain rfl : x = x' := Option.some.inj (placed.symm.trans placed')
    rw [Int.compare_eq_lt] at under
    rw [Int.compare_eq_gt] at beyond
    have apart : h < l := by
      rcases under with under | ⟨under, alike⟩
      · omega
      · have strict : Mixed v high := mixed.resolve_left alike
        rcases beyond with beyond | ⟨-, unlike⟩
        · omega
        · exact absurd strict unlike
    have numbers : low.numericOrder high = .ok .gt :=
      numericOrder_eq_ok.mpr ⟨l, h, placedLow, placedHigh, Int.compare_eq_gt.mpr apart⟩
    rcases thresholds with same | equal
    · rw [← same, numbers]
    · simp [numbers] at equal

end StatValue

/-! ## Rules -/

/-- Where a value stands when it is held against the high threshold first. -/
def Rule.standingHighFirst (r : Rule) (value : StatValue) : Except RuleFault Standing := do
  if (← r.orderAgainst value r.high) = .gt then return .above
  if (← r.orderAgainst value r.low) = .lt then return .below
  return .within

/-- In a policy without fault, no value that can be held against both thresholds of a rule is below
the low and above the high one, so that it does not matter which comes first. -/
theorem Policy.not_below_and_above {p : Policy} (sound : p.fault? = none) {r : Rule}
    (listed : r ∈ p.rules) {v : StatValue} (coherent : StatValue.Coherent r.low r.high v)
    {toLow toHigh : Ordering} (low : v.order r.low = .ok toLow) (high : v.order r.high = .ok toHigh) :
    ¬ (toLow = .lt ∧ toHigh = .gt) ∧ r.standing v = r.standingHighFirst v := by
  have once : ¬ (toLow = .lt ∧ toHigh = .gt) := by
    rintro ⟨rfl, rfl⟩
    have ordered := (fault?_eq_none.mp sound).ordered r listed
    simp [Rule.isInverted, StatValue.order_eq_gt coherent low high] at ordered
  refine ⟨once, ?_⟩
  simp only [Rule.standing, Rule.standingHighFirst, Rule.orderAgainst, low, high, bind, Except.bind]
  by_cases below : toLow = .lt
  · have above : toHigh ≠ .gt := fun above => once ⟨below, above⟩
    simp [below, above]
  · simp [below]

/-- A policy with one rule. -/
def Policy.ruledBy (low high : StatValue) : Policy where
  current := .single "memory" 50
  rules := [⟨⟨"cpu", .avg, .ofMillis 300000, none, none⟩, low, high⟩]
  increaseStep := .single "memory" 1
  decreaseStep := .single "memory" 1
  maxCapacity := .single "memory" 100
  minCapacity := .single "memory" 10

/-- Two texts that are numbers in the order of the texts. -/
theorem Policy.not_below_and_above_texts :
    (ruledBy (.text "20") (.text "80")).fault? = none ∧
      StatValue.Coherent (.text "20") (.text "80") (.integer 95) ∧
      ∃ r ∈ (ruledBy (.text "20") (.text "80")).rules,
        r.standing (.integer 95) = r.standingHighFirst (.integer 95) := by
  have sound : (ruledBy (.text "20") (.text "80")).fault? = none := by decide +kernel
  have coherent : StatValue.Coherent (.text "20") (.text "80") (.integer 95) := by
    intro _
    refine ⟨StatValue.agree_of_not_texts ?_, StatValue.agree_of_not_texts ?_, .inl ?_⟩
    · decide
    · decide
    · decide +kernel
  have listed : ⟨⟨"cpu", .avg, .ofMillis 300000, none, none⟩, .text "20", .text "80"⟩ ∈
      (ruledBy (.text "20") (.text "80")).rules := List.mem_singleton.mpr rfl
  have low : (StatValue.integer 95).order (.text "20") = .ok .gt := by decide +kernel
  have high : (StatValue.integer 95).order (.text "80") = .ok .gt := by decide +kernel
  exact ⟨sound, coherent, _, listed, (not_below_and_above sound listed coherent low high).2⟩

/-- As a text, ten is before nine. -/
theorem Policy.below_and_above :
    (ruledBy (.text "10") (.text "9")).fault? = none ∧
      (StatValue.float (.ofDecimal false ⟨95, -1⟩)).order (.text "10") = .ok .lt ∧
      (StatValue.float (.ofDecimal false ⟨95, -1⟩)).order (.text "9") = .ok .gt := by
  refine ⟨?_, ?_, ?_⟩
  all_goals decide +kernel

end Autoscaler
