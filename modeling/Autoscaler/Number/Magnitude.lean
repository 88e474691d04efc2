/-!
# Floating-point magnitudes

The non-negative values of 64-bit binary floating point, held by their place in increasing order.
Values are exact natural numbers in units of 2^-1074, so rounding and comparison need no
approximation.
-/

namespace Autoscaler

/-- How many magnitudes have the same exponent, 2^52. -/
def binadeSize : Nat := 4503599627370496

/-- The place of infinity among the magnitudes. -/
def infiniteRank : Nat := 2047 * binadeSize

/-- A magnitude by its place in increasing order: rank 0 is zero, rank 1 the least positive value,
`infiniteRank` is infinity. -/
structure Magnitude where
  rank : Nat
  le_infinite : rank ≤ infiniteRank
deriving DecidableEq

namespace Magnitude

/-- The value at a rank, in units of 2^-1074. Past the largest finite value it goes on as if the
exponent had no bound. -/
def unitsAt (rank : Nat) : Nat :=
  if rank < binadeSize then rank
  else (binadeSize + rank % binadeSize) <<< (rank / binadeSize - 1)

/-- The value of a magnitude in units of 2^-1074. -/
def units (m : Magnitude) : Nat := unitsAt m.rank

/-- The last rank whose value is at most `q` units. -/
def rankBelow (q : Nat) : Nat :=
  if q < 2 * binadeSize then q
  else (q.log2 - 52) * binadeSize + q >>> (q.log2 - 52)

/-- The rank whose value is nearest to `num / den`; half way between two, the even one. -/
def nearestRank (num den : Nat) : Nat :=
  let scaled := num <<< 1074
  let below := rankBelow (scaled / den)
  let middle := (unitsAt below + unitsAt (below + 1)) * den
  if 2 * scaled < middle then below
  else if middle < 2 * scaled then below + 1
  else if below % 2 = 0 then below
  else below + 1

/-- The magnitude nearest to `num / den`, infinity for all that would round past the largest. -/
def nearest (num den : Nat) : Magnitude :=
  ⟨min (nearestRank num den) infiniteRank, Nat.min_le_right _ _⟩

/-- Zero. -/
def zero : Magnitude := ⟨0, Nat.zero_le _⟩

/-- Infinity. -/
def infinity : Magnitude := ⟨infiniteRank, Nat.le_refl _⟩

end Magnitude

end Autoscaler
