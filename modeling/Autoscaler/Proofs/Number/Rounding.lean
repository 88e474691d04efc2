import Autoscaler.Number.Magnitude
import Mathlib.Order.Monotone.Basic
import Mathlib.Tactic.Ring

/-!
# Rounding to the nearest magnitude

The values of the ranks grow strictly (`unitsAt_strictMono`), so a quotient lies between those of two
neighbours, and on which side of their middle decides its rank (`lt_nearestRank_iff`). Rounding
therefore depends on the quotient alone, keeps the order of quotients, and leaves alone what is the
value of a rank already.
-/

namespace Autoscaler.Magnitude

/-- The distance to the next value doubles with the exponent. -/
theorem unitsAt_succ (r : Nat) : unitsAt (r + 1) = unitsAt r + 2 ^ (r / binadeSize - 1) := by
  by_cases small : r + 1 < binadeSize
  · have least : r / binadeSize - 1 = 0 := by simp only [binadeSize] at small ⊢; omega
    rw [unitsAt, unitsAt, if_pos small, if_pos (by omega), least, Nat.pow_zero]
  by_cases edge : r + 1 = binadeSize
  · have least : r / binadeSize - 1 = 0 := by simp only [binadeSize] at edge ⊢; omega
    rw [least, edge, unitsAt, unitsAt, if_neg (Nat.lt_irrefl _), if_pos (by omega)]
    simpa [binadeSize] using edge.symm
  · have normal : ¬ r < binadeSize := by omega
    rw [unitsAt, unitsAt, if_neg small, if_neg normal, Nat.shiftLeft_eq, Nat.shiftLeft_eq]
    by_cases carry : r % binadeSize + 1 = binadeSize
    · have exponent : (r + 1) / binadeSize - 1 = r / binadeSize - 1 + 1 := by
        simp only [binadeSize] at carry normal ⊢; omega
      have mantissa : (r + 1) % binadeSize = 0 := by simp only [binadeSize] at carry ⊢; omega
      rw [exponent, mantissa, Nat.pow_succ, ← Nat.succ_mul, Nat.succ_eq_add_one,
        Nat.add_assoc, carry]
      ring
    · have exponent : (r + 1) / binadeSize = r / binadeSize := by
        simp only [binadeSize] at carry ⊢; omega
      have mantissa : (r + 1) % binadeSize = r % binadeSize + 1 := by
        simp only [binadeSize] at carry ⊢; omega
      rw [exponent, mantissa]
      ring

theorem unitsAt_strictMono : StrictMono unitsAt :=
  strictMono_nat_of_lt_succ fun r => by
    rw [unitsAt_succ]
    exact Nat.lt_add_of_pos_right (Nat.two_pow_pos _)

/-- The first values are one unit apart. -/
theorem unitsAt_of_lt {r : Nat} (small : r < 2 * binadeSize) : unitsAt r = r := by
  by_cases sub : r < binadeSize
  · rw [unitsAt, if_pos sub]
  · have exponent : r / binadeSize - 1 = 0 := by simp only [binadeSize] at small sub ⊢; omega
    rw [unitsAt, if_neg sub, exponent, Nat.shiftLeft_zero]
    simp only [binadeSize] at small sub ⊢
    omega

/-- The last rank whose value is at most `q` units is the one whose value has the same leading digits. -/
theorem unitsAt_rankBelow (q : Nat) : unitsAt (rankBelow q) ≤ q ∧ q < unitsAt (rankBelow q + 1) := by
  by_cases small : q < 2 * binadeSize
  · have next : 0 < 2 ^ (q / binadeSize - 1) := Nat.two_pow_pos _
    rw [rankBelow, if_pos small, unitsAt_succ, unitsAt_of_lt small]
    omega
  · -- The leading 53 binary digits of `q` are the digits of the value at the rank.
    have some : q ≠ 0 := by
      simp only [binadeSize] at small
      omega
    have length : 53 ≤ q.log2 := (Nat.le_log2 some).mpr (by
      simp only [binadeSize] at small
      omega)
    obtain ⟨s, log⟩ : ∃ s, q.log2 = s + 52 := ⟨q.log2 - 52, by omega⟩
    have least : 2 ^ (s + 52) ≤ q := log ▸ Nat.log2_self_le some
    have most : q < 2 ^ (s + 53) := by
      have := Nat.lt_log2_self (n := q)
      rwa [log] at this
    have split := Nat.div_add_mod q (2 ^ s)
    have part := Nat.mod_lt q (Nat.two_pow_pos s)
    have low : binadeSize ≤ q / 2 ^ s := by
      rw [Nat.le_div_iff_mul_le (Nat.two_pow_pos s)]
      calc binadeSize * 2 ^ s = 2 ^ (s + 52) := by rw [binadeSize]; ring
        _ ≤ q := least
    have high : q / 2 ^ s < 2 * binadeSize := by
      rw [Nat.div_lt_iff_lt_mul (Nat.two_pow_pos s)]
      calc q < 2 ^ (s + 53) := most
        _ = 2 * binadeSize * 2 ^ s := by rw [binadeSize]; ring
    have rank : rankBelow q = s * binadeSize + q / 2 ^ s := by
      rw [rankBelow, if_neg small, log, Nat.add_sub_cancel, Nat.shiftRight_eq_div_pow]
    have exponent : rankBelow q / binadeSize - 1 = s := by
      rw [rank]; simp only [binadeSize] at low high ⊢; omega
    have mantissa : binadeSize + rankBelow q % binadeSize = q / 2 ^ s := by
      rw [rank]; simp only [binadeSize] at low high ⊢; omega
    have value : unitsAt (rankBelow q) = 2 ^ s * (q / 2 ^ s) := by
      rw [unitsAt, if_neg (by rw [rank]; omega), exponent, mantissa, Nat.shiftLeft_eq, Nat.mul_comm]
    rw [unitsAt_succ, exponent, value]
    omega

/-- The nearest rank is past another exactly when the quotient is past the middle to the next one, or
there, where the even rank is taken. -/
theorem lt_nearestRank_iff {n num den : Nat} (positive : 0 < den) : n < nearestRank num den ↔
    (unitsAt n + unitsAt (n + 1)) * den < 2 * num <<< 1074 ∨
      (unitsAt n + unitsAt (n + 1)) * den = 2 * num <<< 1074 ∧ n % 2 = 1 := by
  rw [nearestRank]
  generalize num <<< 1074 = x
  generalize rank : rankBelow (x / den) = r
  obtain ⟨below, above⟩ := unitsAt_rankBelow (x / den)
  rw [rank, Nat.le_div_iff_mul_le positive] at below
  rw [rank, Nat.div_lt_iff_lt_mul positive] at above
  have ordered : ∀ {a b : Nat}, a ≤ b → unitsAt a * den ≤ unitsAt b * den := fun le =>
    Nat.mul_le_mul_right den (unitsAt_strictMono.monotone le)
  have apart : ∀ a : Nat, unitsAt a * den < unitsAt (a + 1) * den := fun a =>
    Nat.mul_lt_mul_of_pos_right (unitsAt_strictMono a.lt_succ_self) positive
  have own := apart n
  have last := apart r
  simp only [Nat.add_mul]
  rcases Nat.lt_trichotomy n r with less | same | more
  · have before := ordered (Nat.le_of_lt less)
    have next : unitsAt (n + 1) * den ≤ unitsAt r * den := ordered less
    split_ifs <;> omega
  · subst same
    split_ifs <;> omega
  · have next : unitsAt (r + 1) * den ≤ unitsAt n * den := ordered more
    split_ifs <;> omega

private theorem shiftLeft_mul_le {a b c d : Nat} (le : a * d ≤ c * b) (k : Nat) :
    2 * a <<< k * d ≤ 2 * c <<< k * b := by
  rw [Nat.shiftLeft_eq, Nat.shiftLeft_eq]
  calc 2 * (a * 2 ^ k) * d = a * d * (2 * 2 ^ k) := by ring
    _ ≤ c * b * (2 * 2 ^ k) := Nat.mul_le_mul_right _ le
    _ = 2 * (c * 2 ^ k) * b := by ring

/-- The greater quotient has the greater rank. -/
theorem nearestRank_mono {a b c d : Nat} (positive : 0 < b) (positive' : 0 < d) (le : a * d ≤ c * b) :
    nearestRank a b ≤ nearestRank c d := by
  have scaled := shiftLeft_mul_le le 1074
  by_contra greater
  have past := (lt_nearestRank_iff positive).mp (Nat.lt_of_not_le greater)
  refine absurd ((lt_nearestRank_iff positive').mpr ?_) (Nat.lt_irrefl (nearestRank c d))
  generalize unitsAt (nearestRank c d) + unitsAt (nearestRank c d + 1) = middle at past ⊢
  have crossed : middle * d * b = middle * b * d := by ring
  rcases past with past | ⟨reached, odd⟩
  · refine .inl (Nat.lt_of_mul_lt_mul_right (a := b) ?_)
    calc middle * d * b = middle * b * d := crossed
      _ < 2 * a <<< 1074 * d := Nat.mul_lt_mul_of_pos_right past positive'
      _ ≤ 2 * c <<< 1074 * b := scaled
  · have weak : middle * d * b ≤ 2 * c <<< 1074 * b := by rwa [crossed, reached]
    rcases Nat.lt_or_eq_of_le (Nat.le_of_mul_le_mul_right weak positive) with past | equal
    · exact .inl past
    · exact .inr ⟨equal, odd⟩

theorem nearestRank_congr {a b c d : Nat} (positive : 0 < b) (positive' : 0 < d)
    (same : a * d = c * b) : nearestRank a b = nearestRank c d :=
  Nat.le_antisymm (nearestRank_mono positive positive' (Nat.le_of_eq same))
    (nearestRank_mono positive' positive (Nat.le_of_eq same.symm))

/-- A quotient that is the value of a rank has that rank. -/
theorem nearestRank_of_exact {r num den : Nat} (positive : 0 < den)
    (exact : num <<< 1074 = unitsAt r * den) : nearestRank num den = r := by
  have past : ∀ n, n < nearestRank num den ↔ n < r := by
    intro n
    rw [lt_nearestRank_iff positive, exact]
    have next := unitsAt_strictMono n.lt_succ_self
    rw [show 2 * (unitsAt r * den) = 2 * unitsAt r * den by ring, Nat.mul_lt_mul_right positive,
      Nat.mul_left_inj (Nat.ne_of_gt positive)]
    constructor
    · intro beyond
      by_contra least
      have := unitsAt_strictMono.monotone (Nat.le_of_not_lt least)
      simp only [Nat.succ_eq_add_one] at next
      omega
    · intro less
      have : unitsAt (n + 1) ≤ unitsAt r := unitsAt_strictMono.monotone less
      simp only [Nat.succ_eq_add_one] at next
      omega
  exact Nat.le_antisymm (Nat.le_of_not_lt fun less => Nat.lt_irrefl _ ((past _).mp less))
    (Nat.le_of_not_lt fun less => Nat.lt_irrefl _ ((past _).mpr less))

end Autoscaler.Magnitude
