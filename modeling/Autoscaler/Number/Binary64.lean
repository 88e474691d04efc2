import Autoscaler.Number.Shortest

/-!
# 64-bit binary floating point

Signed magnitudes and the value that is not a number: order, conversion of integers, and the text
forms. Reading is correctly rounded; writing gives the shortest digits that read back, never an
exponent.
-/

namespace Autoscaler

/-- A 64-bit binary floating-point value. Zero has two signs; all values that are not a number
are one. -/
inductive Binary64 where
  | nan
  | signed (negative : Bool) (magnitude : Magnitude)
deriving DecidableEq

namespace Binary64

/-- Place on the line of all values; both zeros share place 0. -/
def place (negative : Bool) (m : Magnitude) : Int :=
  if negative then -(m.rank : Int) else m.rank

/-- How two values are ordered. What is not a number has no order, and the two zeros are equal. -/
def order? : Binary64 → Binary64 → Option Ordering
  | .signed s m, .signed t n => some (compare (place s m) (place t n))
  | _, _ => none

/-- Numeric equality: the two zeros agree, and what is not a number agrees with nothing. -/
def agrees (a b : Binary64) : Bool := a.order? b == some .eq

/-- The value nearest to an integer. -/
def ofInt (n : Int) : Binary64 := .signed (n < 0) (.nearest n.natAbs 1)

/-- The value nearest to a signed decimal. -/
def ofDecimal (negative : Bool) (d : Decimal) : Binary64 := .signed negative d.nearest

/-- Neither infinite nor without number. -/
def isFinite : Binary64 → Bool
  | .nan => false
  | .signed _ m => m.rank < infiniteRank

/-- The sign in front of a text. -/
def signText (negative : Bool) : String := if negative then "-" else ""

/-- The text of a magnitude, the given mark standing for the fraction of a whole number. -/
def magnitudeText (m : Magnitude) (wholeMark : String) : String :=
  if m = .infinity then "inf"
  else if m = .zero then "0" ++ wholeMark
  else String.ofList m.shortest.positional ++ if 0 ≤ m.shortest.exponent then wholeMark else ""

/-- The text for people: whole numbers have no point. -/
def text : Binary64 → String
  | .nan => "NaN"
  | .signed s m => signText s ++ magnitudeText m ""

/-- The text for documents that tell integers and floats apart: whole numbers end in `.0`. -/
def documentText : Binary64 → String
  | .nan => "nan"
  | .signed s m => signText s ++ magnitudeText m ".0"

/-- The sign at the start of a number's text and what follows it. -/
def splitSign : List Char → Bool × List Char
  | '-' :: r => (true, r)
  | '+' :: r => (false, r)
  | r => (false, r)

/-- Reads an optional sign and then `inf`, `infinity` or `nan` in any case, or a decimal. Blanks are
not skipped. -/
def ofText? (s : String) : Option Binary64 :=
  let (negative, body) := splitSign s.toList
  let word := String.ofList (body.map Char.toLower)
  if word = "inf" ∨ word = "infinity" then some (.signed negative .infinity)
  else if word = "nan" then some .nan
  else (Decimal.ofChars? body).map (ofDecimal negative)

end Binary64

end Autoscaler
