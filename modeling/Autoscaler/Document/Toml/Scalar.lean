import Autoscaler.Document.Basic
import Autoscaler.Document.Toml.Text
import Autoscaler.Number.Word
import Autoscaler.Text.Hexadecimal

/-!
# Numbers, dates and truth values in TOML

A value that is no text, list or table is a run of letters, digits and the signs of numbers and
dates. Integers have 64 bits with a sign. Floats are rounded to the nearest one, and one past the
largest is refused. A date or a time becomes a table with a single field, which has no name.
-/

namespace Autoscaler.Toml

/-- A character of a number, a date or a word. -/
def isScalarChar (c : Char) : Bool :=
  c.isAlphanum || c == '+' || c == '-' || c == '_' || c == '.' || c == ':'

/-- Digits with underscores, each between two digits; the underscores are dropped. -/
def grouped? (isDigit : Char → Bool) (cs : List Char) : Option (List Char) :=
  if (cs.splitOn '_').all fun group => group != [] && group.all isDigit then
    some (cs.filter (· ≠ '_'))
  else none

/-- Decimal digits that do not begin with a superfluous zero. -/
def wholeDigits? (cs : List Char) : Option (List Char) :=
  (grouped? Char.isDigit cs).filter fun digits => digits.length = 1 || digits.head? ≠ some '0'

/-- An integer of 64 bits with a sign. -/
def ofInteger? (n : Int) : Option Document :=
  if fitsSigned n then some (.integer n) else none

/-- A decimal integer. -/
def decimalInteger? (cs : List Char) : Option Document := do
  let (negative, body) := Binary64.splitSign cs
  let n : Int := Nat.ofDigitChars 10 (← wholeDigits? body) 0
  ofInteger? (if negative then -n else n)

/-- The value of digits to a base of at most sixteen. -/
def baseValue? (base : Nat) (cs : List Char) : Option Nat := do
  let isDigit := fun c => match Text.hexValue? c with
    | some v => v < base
    | none => false
  let digits ← grouped? isDigit cs
  return digits.foldl (fun n c => n * base + (Text.hexValue? c).getD 0) 0

/-- An integer to base sixteen, eight or two. -/
def basedInteger? (cs : List Char) : Option Document := do
  let (base, body) ← match cs with
    | '0' :: 'x' :: rest => some (16, rest)
    | '0' :: 'o' :: rest => some (8, rest)
    | '0' :: 'b' :: rest => some (2, rest)
    | _ => none
  ofInteger? (← baseValue? base body)

/-- The exponent of a float, after its letter. -/
def power? (cs : List Char) : Option Int := do
  let (negative, body) := Binary64.splitSign cs
  let n : Int := Nat.ofDigitChars 10 (← grouped? Char.isDigit body) 0
  return if negative then -n else n

/-- A character that ends the digits before it in a float. -/
def isExponentMark (c : Char) : Bool := c == 'e' || c == 'E'

/-- A float with a fraction, an exponent or both. -/
def decimalFloat? (cs : List Char) : Option Document := do
  let (negative, body) := Binary64.splitSign cs
  let mantissa := body.takeWhile fun c => !isExponentMark c
  let power ← match body.dropWhile fun c => !isExponentMark c with
    | [] => some none
    | _ :: rest => (power? rest).map some
  let whole ← wholeDigits? (mantissa.takeWhile (· ≠ '.'))
  let places ← match mantissa.dropWhile (· ≠ '.') with
    | [] => some none
    | _ :: rest => (grouped? Char.isDigit rest).map some
  if power = none ∧ places = none then none
  let x := Binary64.ofDecimal negative (.ofParts whole (places.getD []) (power.getD 0))
  if x = .signed false .infinity then none
  return .float x

/-- Infinity, or what is not a number. -/
def specialFloat? (cs : List Char) : Option Document :=
  let (negative, body) := Binary64.splitSign cs
  if body = ['i', 'n', 'f'] then some (.float (.signed negative .infinity))
  else if body = ['n', 'a', 'n'] then some (.float .nan)
  else none

/-- A number of exactly so many digits, and what follows. -/
def fixedDigits? (n : Nat) (cs : List Char) : Option (Nat × List Char) :=
  let digits := cs.take n
  if digits.length = n ∧ digits.all Char.isDigit then
    some (Nat.ofDigitChars 10 digits 0, cs.drop n)
  else none

/-- What follows a character. -/
def expect? (wanted : Char) : List Char → Option (List Char)
  | c :: rest => if c = wanted then some rest else none
  | [] => none

/-- How many days a month has. -/
def daysIn (year month : Nat) : Nat :=
  if month = 2 then
    if year % 4 = 0 ∧ (year % 100 ≠ 0 ∨ year % 400 = 0) then 29 else 28
  else if month = 4 ∨ month = 6 ∨ month = 9 ∨ month = 11 then 30
  else 31

/-- What follows a date. -/
def skipDate? (cs : List Char) : Option (List Char) := do
  let (year, rest) ← fixedDigits? 4 cs
  let (month, rest) ← fixedDigits? 2 (← expect? '-' rest)
  let (day, rest) ← fixedDigits? 2 (← expect? '-' rest)
  if 1 ≤ month ∧ month ≤ 12 ∧ 1 ≤ day ∧ day ≤ daysIn year month then return rest else none

/-- What follows a time of day. -/
def skipTime? (cs : List Char) : Option (List Char) := do
  let (hour, rest) ← fixedDigits? 2 cs
  let (minute, rest) ← fixedDigits? 2 (← expect? ':' rest)
  let (second, rest) ← fixedDigits? 2 (← expect? ':' rest)
  if hour ≤ 23 ∧ minute ≤ 59 ∧ second ≤ 60 then
    match rest with
    | '.' :: places =>
      if places.takeWhile Char.isDigit = [] then none else return places.dropWhile Char.isDigit
    | _ => return rest
  else none

/-- An offset from universal time, up to the end, or nothing. -/
def isOffset (cs : List Char) : Bool :=
  match cs with
  | [] => true
  | c :: rest =>
    if c = 'Z' ∨ c = 'z' then rest = []
    else if c = '+' ∨ c = '-' then
      ((do
        let (hour, rest) ← fixedDigits? 2 rest
        let (minute, rest) ← fixedDigits? 2 (← expect? ':' rest)
        return hour ≤ 23 && minute ≤ 59 && rest = []) : Option Bool) = some true
    else false

/-- A date, a time of day, or both, the latter with or without an offset. -/
def isMoment (cs : List Char) : Bool :=
  match skipDate? cs with
  | some [] => true
  | some (c :: rest) =>
    (c = 'T' || c = 't' || c = ' ') && (skipTime? rest).any isOffset
  | none => skipTime? cs = some []

/-- A truth value. -/
def truth? (cs : List Char) : Option Document :=
  if cs = ['t', 'r', 'u', 'e'] then some (.boolean true)
  else if cs = ['f', 'a', 'l', 's', 'e'] then some (.boolean false)
  else none

/-- A date, a time of day, or both. -/
def moment? (cs : List Char) : Option Document :=
  if isMoment cs then some (.table [("", .text (String.ofList cs))]) else none

/-- The value that a run of characters stands for. -/
def scalar (cs : List Char) : Option Document :=
  truth? cs <|> decimalInteger? cs <|> basedInteger? cs <|> decimalFloat? cs <|>
    specialFloat? cs <|> moment? cs

/-- Reads a value that is no text, list or table. A blank may stand between a date and a time. -/
def readScalar (cs : List Char) : Option (Document × List Char) :=
  let run := cs.takeWhile isScalarChar
  let rest := cs.dropWhile isScalarChar
  match rest with
  | ' ' :: c :: more =>
    if c.isDigit ∧ skipDate? run = some [] then
      (scalar (run ++ ' ' :: (c :: more).takeWhile isScalarChar)).map
        (·, (c :: more).dropWhile isScalarChar)
    else (scalar run).map (·, rest)
  | _ => (scalar run).map (·, rest)

end Autoscaler.Toml
