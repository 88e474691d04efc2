import Autoscaler.Number.Binary64
import Autoscaler.Number.Word
import Autoscaler.Text.Blank
import Autoscaler.Text.Quoted

/-!
# Values of statistics

A value, or a threshold to hold it against, is an integer, a floating-point number or a text. Values
of one kind are compared as what they are; values of two kinds are compared as numbers.
-/

namespace Autoscaler

/-- An observed value or a threshold. -/
inductive StatValue where
  | integer (n : Int64)
  | float (x : Binary64)
  | text (s : String)
deriving DecidableEq

/-- Why two values cannot be ordered. -/
inductive CompareError where
  | notNumeric (written : String)
  | unordered (a b : Binary64)
deriving DecidableEq

/-- The message of an error. -/
def CompareError.message : CompareError → String
  | .notNumeric written => "value " ++ Text.quoted written ++ " is not numeric"
  | .unordered a b => "values " ++ a.text ++ " and " ++ b.text ++ " have no ordering"

namespace StatValue

/-- The value of an integer that fits 64 bits with a sign. -/
def ofInt? (n : Int) : Option StatValue :=
  if fitsSigned n then some (.integer (Int64.ofInt n)) else none

/-- The value as a number. A text is read as one, blanks at its ends ignored. -/
def numeric : StatValue → Except CompareError Binary64
  | .integer n => .ok (.ofInt n.toInt)
  | .float x => .ok x
  | .text s => match Binary64.ofText? (Text.trim s) with
    | some x => .ok x
    | none => .error (.notNumeric s)

/-- How two values are ordered as numbers. -/
def numericOrder (a b : StatValue) : Except CompareError Ordering := do
  let x ← a.numeric
  let y ← b.numeric
  match x.order? y with
  | some o => return o
  | none => .error (.unordered x y)

/-- How two values are ordered: integers by size, texts by their characters, all else as numbers. -/
def order : StatValue → StatValue → Except CompareError Ordering
  | .integer m, .integer n => .ok (compare m.toInt n.toInt)
  | .text s, .text t => .ok (compare s t)
  | a, b => numericOrder a b

/-- The same value of the same kind. -/
def agrees : StatValue → StatValue → Bool
  | .integer m, .integer n => m == n
  | .float x, .float y => x.agrees y
  | .text s, .text t => s == t
  | _, _ => false

/-- The value for people: numbers plain, texts between quotes. -/
def display : StatValue → String
  | .integer n => toString n.toInt
  | .float x => x.text
  | .text s => Text.quoted s

end StatValue

end Autoscaler
