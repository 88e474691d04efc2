import Autoscaler.Number.Shortest
import Autoscaler.Proofs.Number.Rounding

/-!
# Decimal numbers read back

Rounding a decimal depends on its value alone, however large its exponent is (`nearest_eq`), and not
on whether its zeros stand in the coefficient or in the exponent (`nearest_scaled`). The shortest
decimal of a magnitude therefore rounds to that magnitude (`nearest_shortest`), and so do the digits
before and after the point that it is written with (`nearest_digits`).
-/

namespace Autoscaler

namespace Magnitude

theorem nearest_congr {a b c d : Nat} (positive : 0 < b) (positive' : 0 < d) (same : a * d = c * b) :
    nearest a b = nearest c d := by
  simp only [nearest, nearestRank_congr positive positive' same]

theorem nearest_of_exact {m : Magnitude} {num den : Nat} (positive : 0 < den)
    (exact : num <<< 1074 = m.units * den) : nearest num den = m := by
  have rank := nearestRank_of_exact positive exact
  have bounded := m.le_infinite
  simp only [nearest, rank, Nat.min_eq_left bounded]

theorem nearestRank_infinite : nearestRank (2 ^ 1024) 1 = infiniteRank :=
  nearestRank_of_exact Nat.one_pos (by decide +kernel)

theorem nearest_eq_infinity {num den : Nat} (positive : 0 < den) (large : 2 ^ 1024 * den ≤ num * 1) :
    nearest num den = .infinity := by
  have past := nearestRank_mono Nat.one_pos positive large
  rw [nearestRank_infinite] at past
  simp only [nearest, infinity, Nat.min_eq_right past]

theorem nearest_eq_zero {num den : Nat} (positive : 0 < den) (small : 2 * num <<< 1074 ≤ den) :
    nearest num den = .zero := by
  have none : nearestRank num den = 0 := by
    by_contra some
    have past := (lt_nearestRank_iff positive).mp (Nat.pos_of_ne_zero some)
    have middle : unitsAt 0 + unitsAt (0 + 1) = 1 := by decide
    rw [middle, Nat.one_mul] at past
    omega
  simp only [nearest, zero, none, Nat.zero_min]

end Magnitude

namespace Decimal

theorem powerOfTen_eq (n : Nat) : powerOfTen n = 10 ^ n := rfl

theorem quotient_den_pos (d : Decimal) : 0 < d.quotient.2 := by
  rw [quotient]
  split
  · exact Nat.one_pos
  · exact Nat.pow_pos (by decide)

/-- Far enough after the point, digits round to nothing. -/
theorem nearest_eq_zero_of_le {c k : Nat} (below : c ≤ 10 ^ k) :
    Magnitude.nearest c (10 ^ (k + 330)) = .zero := by
  have tiny : 2 * 1 <<< 1074 ≤ 10 ^ 330 := by decide +kernel
  have apart : ∀ s : Nat, 2 * c <<< s = c * (2 * 1 <<< s) := by
    intro s
    simp only [Nat.shiftLeft_eq]
    ring
  refine Magnitude.nearest_eq_zero (Nat.pow_pos (by decide)) ?_
  calc 2 * c <<< 1074 = c * (2 * 1 <<< 1074) := apart 1074
    _ ≤ 10 ^ k * 10 ^ 330 := Nat.mul_le_mul below tiny
    _ = 10 ^ (k + 330) := by rw [Nat.pow_add]

/-- The powers that are left uncomputed round as they would if they were computed. -/
theorem nearest_eq (d : Decimal) : d.nearest = .nearest d.quotient.1 d.quotient.2 := by
  obtain ⟨c, e⟩ := d
  have positive := quotient_den_pos ⟨c, e⟩
  rw [nearest]
  split_ifs with none large small
  · simp only at none
    subst none
    have first : (quotient ⟨0, e⟩).1 = 0 := by
      rw [quotient]
      split <;> simp
    refine (Magnitude.nearest_eq_zero positive ?_).symm
    rw [first, Nat.zero_shiftLeft]
    exact Nat.zero_le _
  · simp only at none large
    refine (Magnitude.nearest_eq_infinity positive ?_).symm
    rw [quotient, if_pos (by simp only; omega), powerOfTen, Nat.mul_one, Nat.mul_one]
    calc 2 ^ 1024 ≤ 10 ^ 401 := by decide +kernel
      _ ≤ 10 ^ e.toNat := Nat.pow_le_pow_right (by decide) (by omega)
      _ ≤ c * 10 ^ e.toNat := Nat.le_mul_of_pos_left _ (Nat.pos_of_ne_zero none)
  · simp only at none small
    obtain ⟨k, power⟩ : ∃ k : Nat, e = -((k + 330 : Nat) : Int) := ⟨(-e - 330).toNat, by omega⟩
    subst power
    have below : c ≤ 10 ^ k := by
      calc c ≤ 2 ^ (c.log2 + 1) := Nat.le_of_lt Nat.lt_log2_self
        _ ≤ 2 ^ (3 * k) := Nat.pow_le_pow_right (by decide) (by omega)
        _ = 8 ^ k := by rw [Nat.pow_mul]
        _ ≤ 10 ^ k := Nat.pow_le_pow_left (by decide) k
    have num : quotient ⟨c, -((k + 330 : Nat) : Int)⟩ = (c, 10 ^ (k + 330)) := by
      have digits : (- -((k + 330 : Nat) : Int)).toNat = k + 330 := by omega
      rw [quotient, if_neg (by simp only; omega), powerOfTen_eq, digits]
    rw [num]
    exact (nearest_eq_zero_of_le below).symm
  · rfl

/-- The same value over any power of ten that leaves no fraction. -/
theorem nearest_over {c : Nat} {e : Int} {n k : Nat} (power : e + k = n) :
    nearest ⟨c, e⟩ = .nearest (c * 10 ^ n) (10 ^ k) := by
  rw [nearest_eq]
  refine Magnitude.nearest_congr (quotient_den_pos _) (Nat.pow_pos (by decide)) ?_
  rw [quotient]
  split
  · rename_i whole
    simp only at whole
    obtain ⟨j, rfl⟩ : ∃ j : Nat, e = j := ⟨e.toNat, by omega⟩
    obtain rfl : n = j + k := by omega
    simp only [powerOfTen_eq, Int.toNat_natCast]
    ring
  · rename_i fraction
    simp only at fraction
    obtain ⟨j, rfl⟩ : ∃ j : Nat, e = -j := ⟨(-e).toNat, by omega⟩
    obtain rfl : k = n + j := by omega
    simp only [powerOfTen_eq, Int.neg_neg, Int.toNat_natCast]
    ring

/-- Zeros may stand in the coefficient or in the exponent. -/
theorem nearest_scaled (c j : Nat) (e : Int) : nearest ⟨c * 10 ^ j, e⟩ = nearest ⟨c, e + j⟩ := by
  obtain ⟨k, n, power⟩ : ∃ k n : Nat, e + k = n := ⟨(-e).toNat, e.toNat, by omega⟩
  rw [nearest_over power, nearest_over (show e + j + k = (n + j : Nat) by omega)]
  rw [Nat.mul_assoc, ← Nat.pow_add, Nat.add_comm j n]

theorem nearest_reduced (d : Decimal) : d.reduced.nearest = d.nearest := by
  fun_induction reduced d with
  | case1 d zeros ih =>
    obtain ⟨c, e⟩ := d
    have split : c = c / 10 * 10 ^ 1 := by
      have := zeros.2
      simp only at this
      omega
    rw [ih]
    conv => rhs; rw [split]
    exact (nearest_scaled (c / 10) 1 e).symm
  | case2 => rfl

end Decimal

namespace Magnitude

theorem nearest_exact (m : Magnitude) : m.exact.nearest = m := by
  have exponent : (-1074 : Int) = -((1074 : Nat) : Int) := rfl
  rw [exact, exponent]
  -- The number of binary places is left open, so that no power is computed.
  generalize bits : 1074 = k
  rw [Decimal.nearest_over (show -(k : Int) + k = (0 : Nat) by omega)]
  refine nearest_of_exact (Nat.pow_pos (by decide)) ?_
  rw [bits, Nat.shiftLeft_eq, Nat.pow_zero, Nat.mul_one, Nat.mul_assoc]
  exact congrArg (m.units * ·) (Nat.mul_pow 5 2 k).symm

/-- The decimals beside a magnitude are taken only if they round to it. -/
theorem nearest_of_beside? {m : Magnitude} {e : Int} {d : Decimal} (found : m.beside? e = some d) :
    d.nearest = m := by
  simp only [beside?] at found
  split at found
  · rename_i low high
    split at found <;> cases found
    · exact of_decide_eq_true low
    · exact of_decide_eq_true high
  · rename_i low _
    cases found
    exact of_decide_eq_true low
  · rename_i _ high
    cases found
    exact of_decide_eq_true high
  · cases found

theorem nearest_shortest (m : Magnitude) : m.shortest.nearest = m := by
  simp only [shortest]
  rw [Decimal.nearest_reduced]
  cases found : (List.range 17).findSome? fun (n : Nat) => m.beside? (m.digitsBeforePoint - (n + 1)) with
  | none => exact nearest_exact m
  | some d =>
    obtain ⟨n, -, beside⟩ := List.exists_of_findSome?_eq_some found
    exact nearest_of_beside? beside

end Magnitude

/-! ## Digits -/

theorem isDigit_of_mem_toDigits {n : Nat} {c : Char} (mem : c ∈ Nat.toDigits 10 n) : c.isDigit = true :=
  Nat.isDigit_of_mem_toDigits (by decide) (by decide) mem

/-- No number but zero is written with a zero in front. -/
theorem head?_toDigits {n : Nat} (positive : n ≠ 0) : (Nat.toDigits 10 n).head? ≠ some '0' := by
  induction n using Nat.strong_induction_on with
  | _ n ih =>
    rw [Nat.toDigits_eq_if (by decide)]
    split
    · simpa using positive
    · rename_i large
      have first : Nat.toDigits 10 (n / 10) ≠ [] := Nat.toDigits_ne_nil
      rw [List.head?_append, List.head?_eq_some_head first, Option.some_or, ← List.head?_eq_some_head]
      exact ih (n / 10) (by omega) (by omega)

namespace Decimal

/-- The digits before the point. -/
def whole (d : Decimal) : List Char :=
  let digits := Nat.toDigits 10 d.coefficient
  if 0 ≤ d.exponent then digits ++ List.replicate d.exponent.toNat '0'
  else if (-d.exponent).toNat < digits.length then digits.take (digits.length - (-d.exponent).toNat)
  else ['0']

/-- The digits after the point, at least one. -/
def fraction (d : Decimal) : List Char :=
  let digits := Nat.toDigits 10 d.coefficient
  if 0 ≤ d.exponent then ['0']
  else if (-d.exponent).toNat < digits.length then digits.drop (digits.length - (-d.exponent).toNat)
  else List.replicate ((-d.exponent).toNat - digits.length) '0' ++ digits

theorem positional_eq (d : Decimal) :
    d.positional ++ (if 0 ≤ d.exponent then ['.', '0'] else []) = d.whole ++ '.' :: d.fraction := by
  simp only [positional, whole, fraction]
  split_ifs <;> simp

theorem isDigit_of_mem_whole {d : Decimal} {c : Char} (mem : c ∈ d.whole) : c.isDigit = true := by
  simp only [whole] at mem
  split_ifs at mem
  · rcases List.mem_append.mp mem with digit | zero
    · exact isDigit_of_mem_toDigits digit
    · rw [(List.mem_replicate.mp zero).2]
      rfl
  · exact isDigit_of_mem_toDigits (List.mem_of_mem_take mem)
  · rw [List.mem_singleton.mp mem]
    rfl

theorem isDigit_of_mem_fraction {d : Decimal} {c : Char} (mem : c ∈ d.fraction) :
    c.isDigit = true := by
  simp only [fraction] at mem
  split_ifs at mem
  · rw [List.mem_singleton.mp mem]
    rfl
  · exact isDigit_of_mem_toDigits (List.mem_of_mem_drop mem)
  · rcases List.mem_append.mp mem with zero | digit
    · rw [(List.mem_replicate.mp zero).2]
      rfl
    · exact isDigit_of_mem_toDigits digit

theorem whole_ne_nil (d : Decimal) : d.whole ≠ [] := by
  have some : 0 < (Nat.toDigits 10 d.coefficient).length := Nat.length_toDigits_pos
  refine List.ne_nil_of_length_pos ?_
  simp only [whole]
  split_ifs
  · rw [List.length_append]
    omega
  · rw [List.length_take]
    omega
  · exact Nat.one_pos

theorem fraction_ne_nil (d : Decimal) : d.fraction ≠ [] := by
  have some : 0 < (Nat.toDigits 10 d.coefficient).length := Nat.length_toDigits_pos
  refine List.ne_nil_of_length_pos ?_
  simp only [fraction]
  split_ifs
  · exact Nat.one_pos
  · rw [List.length_drop]
    omega
  · rw [List.length_append]
    omega

/-- There is no superfluous zero before the point. -/
theorem head?_whole {d : Decimal} (positive : d.coefficient ≠ 0) :
    d.whole.length = 1 ∨ d.whole.head? ≠ some '0' := by
  have first := head?_toDigits positive
  have digits : Nat.toDigits 10 d.coefficient ≠ [] := Nat.toDigits_ne_nil
  simp only [whole]
  split_ifs
  · rw [List.head?_append, List.head?_eq_some_head digits, Option.some_or, ← List.head?_eq_some_head]
    exact .inr first
  · rw [List.head?_take, if_neg (by omega)]
    exact .inr first
  · exact .inl rfl

/-- The digits before and after the point have the value of the decimal. -/
theorem nearest_digits (d : Decimal) : (ofParts d.whole d.fraction 0).nearest = d.nearest := by
  obtain ⟨c, e⟩ := d
  have value : Nat.ofDigitChars 10 (Nat.toDigits 10 c) 0 = c :=
    Nat.ofDigitChars_toDigits (by decide) (by decide)
  simp only [ofParts, whole, fraction]
  split_ifs with whole inside
  · obtain ⟨n, rfl⟩ : ∃ n : Nat, e = n := ⟨e.toNat, by omega⟩
    have zeros : ['0'] = List.replicate 1 '0' := rfl
    rw [zeros, Nat.ofDigitChars_append, Nat.ofDigitChars_append, value,
      Nat.ofDigitChars_replicate_zero, Nat.ofDigitChars_replicate_zero, ← Nat.mul_assoc,
      ← Nat.pow_add, Nat.mul_comm, nearest_scaled]
    simp
  · rw [List.take_append_drop, value, List.length_drop]
    congr 2
    omega
  · have zero : (['0'] ++ (List.replicate ((-e).toNat - (Nat.toDigits 10 c).length) '0' ++
        Nat.toDigits 10 c)) =
        List.replicate ((-e).toNat - (Nat.toDigits 10 c).length + 1) '0' ++ Nat.toDigits 10 c := by
      rw [List.replicate_succ]
      rfl
    rw [zero, Nat.ofDigitChars_append, Nat.ofDigitChars_replicate_zero, Nat.mul_zero, value]
    congr 2
    simp
    omega

end Decimal

end Autoscaler
