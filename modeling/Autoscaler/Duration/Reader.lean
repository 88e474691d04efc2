import Autoscaler.Duration.Basic
import Autoscaler.Text.Blank
import Autoscaler.Text.Quoted

/-!
# Reading durations

A duration is written as numbers with units, `1h 30m` or `1.5h`. Reading is a fold over the
characters. Its state says what is being read, and offsets in errors count the bytes of the text.
Blanks may stand anywhere except inside a unit.
-/

namespace Autoscaler

/-- Why a text is no duration. -/
inductive DurationError where
  | empty
  | numberExpected (offset : Nat)
  | invalidCharacter (offset : Nat)
  | tooLarge
  | unitNeeded (number : Nat)
  | unknownUnit (unit : String)
deriving DecidableEq

/-- The message of an error. -/
def DurationError.message : DurationError → String
  | .empty => "value was empty"
  | .numberExpected offset => "expected number at " ++ toString offset
  | .invalidCharacter offset => "invalid character at " ++ toString offset
  | .tooLarge => "number is too large or cannot be represented without a lack of precision " ++
      "(values below 1ns are not supported)"
  | .unitNeeded number => "time unit needed, for example " ++ toString number ++ "sec or " ++
      toString number ++ "ms"
  | .unknownUnit unit => "unknown time unit " ++ Text.quoted unit ++ ", supported units: " ++
      "ns, us/µs, ms, sec, min, hours, days, weeks, months, years (and few variations)"

namespace Duration

/-- Names of units and their lengths in nanoseconds. -/
def units : List (List String × Nat) :=
  [(["nanos", "nsec", "ns"], 1),
    (["usec", "us", "µs"], 1000),
    (["millis", "msec", "ms"], 1000000),
    (["seconds", "second", "secs", "sec", "s"], second),
    (["minutes", "minute", "min", "mins", "m"], 60 * second),
    (["hours", "hour", "hr", "hrs", "h"], 3600 * second),
    (["days", "day", "d"], 86400 * second),
    (["weeks", "week", "wk", "wks", "w"], 604800 * second),
    (["months", "month", "M"], monthSeconds * second),
    (["years", "year", "yr", "yrs", "y"], yearSeconds * second)]

/-- The length of a unit by its name. -/
def unit? (name : String) : Option Nat := (units.find? fun u => u.1.contains name).map Prod.snd

/-- A number that fits 64 bits. -/
def fitted (n : Nat) : Except DurationError Nat := if n < wordLimit then .ok n else .error .tooLarge

/-- Adds seconds and nanoseconds to a sum of nanoseconds. The nanoseconds added together with those
past the last whole second of the sum, and the seconds of the result, have to fit 64 bits. -/
def plus (total seconds nanos : Nat) : Except DurationError Nat := do
  let _ ← fitted (total % second + nanos)
  let sum := total + seconds * second + nanos
  let _ ← fitted (sum / second)
  return sum

/-- Adds a whole number of units: of seconds for units of at least a second, of nanoseconds else. -/
def plusWhole (total n length : Nat) : Except DurationError Nat := do
  if length < second then plus total 0 (← fitted (n * length))
  else plus total (← fitted (n * (length / second))) 0

/-- Adds a fraction of a unit, which has to be exact: in seconds for units of at least an hour, in
nanoseconds else. There is no fraction of a nanosecond. -/
def plusFraction (total num den length : Nat) : Except DurationError Nat := do
  let long := decide (3600 * second ≤ length)
  let scaled ← fitted (num * if long then length / second else length)
  if length = 1 ∨ scaled % den ≠ 0 then .error .tooLarge
  else if long then plus total (scaled / den) 0
  else plus total 0 (scaled / den)

/-- What a number and its unit add to the sum. -/
def plusItem (total n : Nat) (fraction : Option (Nat × Nat)) (name : String) :
    Except DurationError Nat := do
  let some length := unit? name | .error (.unknownUnit name)
  let total ← plusWhole total n length
  match fraction with
  | none => return total
  | some (num, den) => plusFraction total num den length

/-- What is being read. -/
inductive Phase where
  /-- Looking for a number since an offset. -/
  | seek (since : Nat)
  /-- Inside the digits of a number. -/
  | whole (n : Nat)
  /-- After the point: the fraction so far, and the offset that an error names. -/
  | fraction (n num den : Nat) (last : Nat)
  /-- Inside the name of a unit. -/
  | unit (n : Nat) (fraction : Option (Nat × Nat)) (name : List Char)

/-- The state between two characters. -/
structure Progress where
  offset : Nat
  total : Nat
  phase : Phase

/-- A letter that a unit may hold. -/
def isUnitLetter (c : Char) : Bool := c.isAlpha || c == 'µ'

/-- The value of a digit. -/
def digitValue (c : Char) : Nat := c.toNat - '0'.toNat

/-- Reads one character. -/
def readChar (p : Progress) (c : Char) : Except DurationError Progress := do
  let next := p.offset + c.utf8Size
  match p.phase with
  | .seek since =>
    if c.isDigit then return ⟨next, p.total, .whole (digitValue c)⟩
    else if Text.isBlank c then return ⟨next, p.total, .seek since⟩
    else .error (.numberExpected since)
  | .whole n =>
    if c.isDigit then return ⟨next, p.total, .whole (← fitted (n * 10 + digitValue c))⟩
    else if Text.isBlank c then return ⟨next, p.total, .whole n⟩
    else if isUnitLetter c then return ⟨next, p.total, .unit n none [c]⟩
    else if c = '.' then return ⟨next, p.total, .fraction n 0 1 p.offset⟩
    else .error (.invalidCharacter p.offset)
  | .fraction n num den last =>
    if c.isDigit then
      return ⟨next, p.total, .fraction n (num * 10 + digitValue c) (← fitted (den * 10)) next⟩
    else if Text.isBlank c then return ⟨next, p.total, .fraction n num den next⟩
    else if isUnitLetter c ∧ den ≠ 1 then return ⟨next, p.total, .unit n (some (num, den)) [c]⟩
    else .error (.invalidCharacter last)
  | .unit n fraction name =>
    if c.isDigit then
      return ⟨next, ← plusItem p.total n fraction (String.ofList name), .whole (digitValue c)⟩
    else if Text.isBlank c then
      return ⟨next, ← plusItem p.total n fraction (String.ofList name), .seek next⟩
    else if isUnitLetter c then return ⟨next, p.total, .unit n fraction (name ++ [c])⟩
    else .error (.invalidCharacter p.offset)

/-- Takes the end of the text: the last number needs its unit. -/
def finish (p : Progress) : Except DurationError Nat :=
  match p.phase with
  | .seek _ => .ok p.total
  | .whole n => .error (.unitNeeded n)
  | .fraction n _ den last => .error (if den = 1 then .invalidCharacter last else .unitNeeded n)
  | .unit n fraction name => plusItem p.total n fraction (String.ofList name)

/-- The nanoseconds that a text without blanks at its ends stands for. A bare `0` needs no unit. -/
def readNanos (cs : List Char) : Except DurationError Nat :=
  if cs = [] then .error .empty
  else if cs = ['0'] then .ok 0
  else do finish (← cs.foldlM readChar ⟨0, 0, .seek 0⟩)

/-- Reads a duration; blanks at either end are ignored. -/
def parse (s : String) : Except DurationError Duration := do
  let nanos ← readNanos (Text.trimmed s.toList)
  match ofSeconds? 0 nanos with
  | some d => .ok d
  | none => .error .tooLarge

end Duration

end Autoscaler
