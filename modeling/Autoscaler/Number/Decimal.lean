import Autoscaler.Number.Magnitude

/-!
# Decimal numbers

A coefficient and a power of ten, read from digits, rounded to the nearest floating-point magnitude
and written without an exponent.
-/

namespace Autoscaler

/-- The number `coefficient * 10 ^ exponent`. -/
structure Decimal where
  coefficient : Nat
  exponent : Int
deriving DecidableEq

namespace Decimal

/-- The digits before and after a point, times a power of ten. -/
def ofParts (whole fraction : List Char) (power : Int) : Decimal :=
  ⟨Nat.ofDigitChars 10 (whole ++ fraction) 0, power - fraction.length⟩

/-- A power of ten. -/
def powerOfTen (n : Nat) : Nat := Nat.pow 10 n

/-- The value as a quotient of natural numbers. -/
def quotient (d : Decimal) : Nat × Nat :=
  if 0 ≤ d.exponent then (d.coefficient * powerOfTen d.exponent.toNat, 1)
  else (d.coefficient, powerOfTen (-d.exponent).toNat)

/-- The nearest magnitude. What is certainly above 10^400 or below 10^-330 is decided without
computing the power: the first is infinity, the second zero. -/
def nearest (d : Decimal) : Magnitude :=
  if d.coefficient = 0 then .zero
  else if 400 < d.exponent then .infinity
  else if (d.coefficient.log2 + 1 : Int) ≤ 3 * (-d.exponent - 330) then .zero
  else .nearest d.quotient.1 d.quotient.2

/-- The same number with the trailing zeros of its coefficient moved into the exponent. -/
def reduced (d : Decimal) : Decimal :=
  if h : d.coefficient ≠ 0 ∧ d.coefficient % 10 = 0 then
    reduced ⟨d.coefficient / 10, d.exponent + 1⟩
  else d
termination_by d.coefficient
decreasing_by omega

/-- The digits of a number without exponent; a point stands only before further digits. -/
def positional (d : Decimal) : List Char :=
  let digits := Nat.toDigits 10 d.coefficient
  if 0 ≤ d.exponent then digits ++ List.replicate d.exponent.toNat '0'
  else
    let places := (-d.exponent).toNat
    if places < digits.length then
      digits.take (digits.length - places) ++ '.' :: digits.drop (digits.length - places)
    else '0' :: '.' :: (List.replicate (places - digits.length) '0' ++ digits)

/-- An unsigned decimal with an optional point and an optional power of ten. There is a digit on at
least one side of the point, and nothing is left over. -/
def ofChars? (cs : List Char) : Option Decimal :=
  let whole := cs.takeWhile Char.isDigit
  let rest := cs.dropWhile Char.isDigit
  let fraction := match rest with
    | '.' :: r => r.takeWhile Char.isDigit
    | _ => []
  let rest := match rest with
    | '.' :: r => r.dropWhile Char.isDigit
    | r => r
  if whole.isEmpty && fraction.isEmpty then none
  else match rest with
    | [] => some (ofParts whole fraction 0)
    | c :: r => if c = 'e' ∨ c = 'E' then (power? r).map (ofParts whole fraction) else none
where
  /-- The power of ten: an optional sign and at least one digit. -/
  power? : List Char → Option Int
    | '-' :: r => (digits? r).map fun n => -(n : Int)
    | '+' :: r => (digits? r).map fun n => (n : Int)
    | r => (digits? r).map fun n => (n : Int)
  /-- Digits and nothing else, at least one. -/
  digits? (cs : List Char) : Option Nat :=
    if cs.isEmpty || !cs.all Char.isDigit then none else some (Nat.ofDigitChars 10 cs 0)

end Decimal

end Autoscaler
