import Autoscaler.Number.Decimal

/-!
# Shortest decimal of a magnitude

The fewest digits that read back as the magnitude and, of those, the nearest to it. Of two equally
near the greater is taken.
-/

namespace Autoscaler.Magnitude

/-- How many digits the value has before the point: the least `p`, among the two that the binary
length leaves open, with the value below 10^p. -/
def digitsBeforePoint (m : Magnitude) : Int :=
  let low := ((m.units.log2 : Int) - 1074) * 30103 / 100000 + 1
  let (num, den) := (⟨1, low⟩ : Decimal).quotient
  if m.units * den < num <<< 1074 then low else low + 1

/-- The value divided by 10^e, as a quotient. -/
def overPower (m : Magnitude) (e : Int) : Nat × Nat :=
  if 0 ≤ e then (m.units, Decimal.powerOfTen e.toNat <<< 1074)
  else (m.units * Decimal.powerOfTen (-e).toNat, 1 <<< 1074)

/-- The better of the two multiples of 10^e beside the value, of those that read back. -/
def beside? (m : Magnitude) (e : Int) : Option Decimal :=
  let (num, den) := m.overPower e
  let low : Decimal := ⟨num / den, e⟩
  let high : Decimal := ⟨num / den + 1, e⟩
  match decide (low.nearest = m), decide (high.nearest = m) with
  | true, true => some (if 2 * num < (2 * (num / den) + 1) * den then low else high)
  | true, false => some low
  | false, true => some high
  | false, false => none

/-- The value with all its digits. -/
def exact (m : Magnitude) : Decimal := ⟨m.units * Nat.pow 5 1074, -1074⟩

/-- The shortest decimal that reads back as a finite magnitude. -/
def shortest (m : Magnitude) : Decimal :=
  let p := m.digitsBeforePoint
  (((List.range 17).findSome? fun (n : Nat) => m.beside? (p - (n + 1))).getD m.exact).reduced

end Autoscaler.Magnitude
