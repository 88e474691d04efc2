import Autoscaler.Document.Basic
import Autoscaler.Text.Hexadecimal

/-!
# Reading JSON

Numbers are told apart by how they are written: one without point and exponent is an integer if it
fits 64 bits, with or without sign, and all others are floats; `-0` is the negative zero. A text may
hold half of a character beyond 16 bits as far as the notation is concerned, but has no value then.
-/

namespace Autoscaler.Json

open Text (hexValue?)

/-- Blanks between the tokens. -/
def isSpace (c : Char) : Bool := c == ' ' || c == '\n' || c == '\t' || c == '\r'

/-- What follows the blanks. -/
def skipSpace (cs : List Char) : List Char := cs.dropWhile isSpace

/-- The value of four hexadecimal digits. -/
def unit? (a b c d : Char) : Option Nat := do
  return (((← hexValue? a) * 16 + (← hexValue? b)) * 16 + (← hexValue? c)) * 16 + (← hexValue? d)

/-- The character that an escape of one letter stands for. -/
def escape? : Char → Option Char
  | '"' => some '"'
  | '\\' => some '\\'
  | '/' => some '/'
  | 'b' => some '\x08'
  | 'f' => some '\x0c'
  | 'n' => some '\n'
  | 'r' => some '\r'
  | 't' => some '\t'
  | _ => none

/-- A part of a text: a character, or a unit of 16 bits that was escaped by its number. -/
inductive Letter where
  | plain (c : Char)
  | unit (n : Nat)
deriving DecidableEq

/-- Puts a letter in front of those that were read. -/
def Letter.consTo (l : Letter) (read : Option (List Letter × List Char)) :
    Option (List Letter × List Char) :=
  read.map fun (letters, rest) => (l :: letters, rest)

/-- The letters of a text up to its closing quote, and what follows it. -/
def letters : List Char → Option (List Letter × List Char)
  | [] => none
  | '"' :: rest => some ([], rest)
  | '\\' :: 'u' :: a :: b :: c :: d :: rest =>
    match unit? a b c d with
    | some n => (Letter.unit n).consTo (letters rest)
    | none => none
  | '\\' :: c :: rest =>
    match escape? c with
    | some c => (Letter.plain c).consTo (letters rest)
    | none => none
  | c :: rest => if c.toNat < 0x20 then none else (Letter.plain c).consTo (letters rest)

/-- Whether a unit is half of a character beyond 16 bits. -/
def isHalf (n : Nat) : Bool := 0xd800 ≤ n && n < 0xe000

/-- The character of a first and a second half. -/
def joined? (first second : Nat) : Option Char :=
  if first < 0xdc00 ∧ 0xdc00 ≤ second ∧ isHalf second then
    some (Char.ofNat (0x10000 + (first - 0xd800) * 0x400 + (second - 0xdc00)))
  else none

/-- The characters that letters stand for. A half needs the other one right after it. -/
def characters? : List Letter → Option (List Char)
  | [] => some []
  | .plain c :: rest => (characters? rest).map (c :: ·)
  | .unit n :: rest =>
    if isHalf n then
      match rest with
      | .unit m :: rest => (joined? n m).bind fun c => (characters? rest).map (c :: ·)
      | _ => none
    else (characters? rest).map (Char.ofNat n :: ·)

/-- A text after its opening quote; nothing comes of one with half of a character. -/
def text (cs : List Char) : Option (Option String × List Char) :=
  (letters cs).map fun (letters, rest) => ((characters? letters).map String.ofList, rest)

/-- A number as a float. -/
def floatNumber (negative : Bool) (d : Decimal) : Document :=
  let x := Binary64.ofDecimal negative d
  if x.isFinite then .float x else .overflow

/-- A number without point and exponent. -/
def wholeNumber (negative : Bool) (digits : List Char) : Document :=
  let n := Nat.ofDigitChars 10 digits 0
  if negative ∧ 0 < n ∧ n ≤ signedLimit then .integer (-(n : Int))
  else if ¬ negative ∧ n < wordLimit then .integer n
  else floatNumber negative ⟨n, 0⟩

/-- The exponent of a number, if there is one: a sign may precede its digits. -/
def exponent (cs : List Char) : Option (Option Int × List Char) :=
  match cs with
  | c :: rest =>
    if c = 'e' ∨ c = 'E' then
      let (negative, body) := Binary64.splitSign rest
      let digits := body.takeWhile Char.isDigit
      let power : Int := Nat.ofDigitChars 10 digits 0
      if digits = [] then none
      else some (some (if negative then -power else power), body.dropWhile Char.isDigit)
    else some (none, cs)
  | [] => some (none, [])

/-- The digits after the point of a number, if there is one. -/
def fraction (cs : List Char) : Option (List Char × List Char) :=
  match cs with
  | '.' :: rest =>
    let digits := rest.takeWhile Char.isDigit
    if digits = [] then none else some (digits, rest.dropWhile Char.isDigit)
  | _ => some ([], cs)

/-- A number. -/
def number (cs : List Char) : Option (Document × List Char) := do
  let (negative, body) := match cs with
    | '-' :: rest => (true, rest)
    | _ => (false, cs)
  let digits := body.takeWhile Char.isDigit
  if digits = [] ∨ (1 < digits.length ∧ digits.head? = some '0') then none
  let (places, rest) ← fraction (body.dropWhile Char.isDigit)
  let (power, rest) ← exponent rest
  if places = [] ∧ power = none then return (wholeNumber negative digits, rest)
  return (floatNumber negative (.ofParts digits places (power.getD 0)), rest)

mutual

/-- A value, no blanks before it. The fuel bounds the nesting and the number of values. -/
def value : Nat → List Char → Option (Document × List Char)
  | 0, _ => none
  | fuel + 1, cs =>
    match cs with
    | '"' :: rest => (text rest).map fun (s, rest) => ((s.map .text).getD .illFormed, rest)
    | '[' :: rest => match skipSpace rest with
      | ']' :: rest => some (.list [], rest)
      | rest => (items fuel rest).map fun (items, rest) => (.list items, rest)
    | '\x7b' :: rest => match skipSpace rest with
      | '\x7d' :: rest => some (.table [], rest)
      | rest => (fields fuel (some []) rest).map fun (fields, rest) =>
        ((fields.map .table).getD .illFormed, rest)
    | 't' :: 'r' :: 'u' :: 'e' :: rest => some (.boolean true, rest)
    | 'f' :: 'a' :: 'l' :: 's' :: 'e' :: rest => some (.boolean false, rest)
    | 'n' :: 'u' :: 'l' :: 'l' :: rest => some (.null, rest)
    | _ => number cs

/-- The items of a list up to its end, at least one. -/
def items : Nat → List Char → Option (List Document × List Char)
  | 0, _ => none
  | fuel + 1, cs => do
    let (first, rest) ← value fuel cs
    match skipSpace rest with
    | ',' :: rest =>
      let (others, rest) ← items fuel (skipSpace rest)
      return (first :: others, rest)
    | ']' :: rest => return ([first], rest)
    | _ => none

/-- The fields of a table up to its end, at least one, added to those read before. Nothing comes of
fields with half of a character in a name. -/
def fields : Nat → Option (List (String × Document)) → List Char →
    Option (Option (List (String × Document)) × List Char)
  | 0, _, _ => none
  | fuel + 1, before, cs =>
    match cs with
    | '"' :: rest => do
      let (name, rest) ← text rest
      match skipSpace rest with
      | ':' :: rest =>
        let (v, rest) ← value fuel (skipSpace rest)
        let before := before.bind fun before => name.map fun name => Document.put before name v
        match skipSpace rest with
        | ',' :: rest => fields fuel before (skipSpace rest)
        | '\x7d' :: rest => return (before, rest)
        | _ => none
      | _ => none
    | _ => none

end

/-- The document that a JSON text stands for. -/
def read? (s : String) : Option Document :=
  let cs := skipSpace s.toList
  match value (2 * cs.length + 2) cs with
  | some (d, rest) => if skipSpace rest = [] then some d else none
  | none => none

end Autoscaler.Json
