import Autoscaler.Text.Hexadecimal
import Autoscaler.Text.Scanned

/-!
# Texts in TOML

Texts stand between double quotes, with escapes, or between single quotes, without. Three quotes on
either side let a text go over several lines; the line break right after the opening quotes does not
belong to it.
-/

namespace Autoscaler.Toml

open Text (Scanned hexValue? hexFour)

/-- A character that may stand for itself within a line. -/
def isPlain (c : Char) : Bool := c == '\t' || (0x20 ≤ c.toNat && c.toNat != 0x7f)

/-- A blank within a line. -/
def isSpace (c : Char) : Bool := c == ' ' || c == '\t'

/-- The character that an escape of one letter stands for. -/
def escape? (c : Char) : Option Char :=
  if c = 'b' then some '\x08'
  else if c = 't' then some '\t'
  else if c = 'n' then some '\n'
  else if c = 'f' then some '\x0c'
  else if c = 'r' then some '\r'
  else if c = '"' then some '"'
  else if c = '\\' then some '\\'
  else none

/-- The character with a number, surrogates and all beyond the last one excepted. -/
def scalar? (n : Nat) : Option Char := if n.isValidChar then some (Char.ofNat n) else none

/-- Where the reader of a text with escapes is. -/
inductive Place where
  /-- Before a character that stands for itself or begins an escape. -/
  | plain
  /-- After a backslash. -/
  | escape
  /-- Before the hexadecimal digits still to come, with the value of those before. -/
  | digits (more : Nat) (value : Nat)
  /-- After a backslash at the end of a line, whose break was seen or not. -/
  | gap (broken : Bool)
deriving DecidableEq

/-- The place after an escape's letter, and the character that the letter stands for by itself. -/
def afterEscape (c : Char) : Option (Option Char × Place) :=
  if c = 'u' then some (none, .digits 4 0)
  else if c = 'U' then some (none, .digits 8 0)
  else (escape? c).map fun e => (some e, .plain)

/-- The place after a hexadecimal digit, and the character after the last one. -/
def afterDigit (more value : Nat) (c : Char) : Option (Option Char × Place) := do
  let value := value * 16 + (← hexValue? c)
  if more ≤ 1 then return (some (← scalar? value), .plain)
  else return (none, .digits (more - 1) value)

/-- Goes on after a step that may have completed a character. -/
def stepThen (step : Option (Option Char × Place))
    (go : Place → Scanned) : Scanned :=
  match step with
  | none => none
  | some (none, place) => go place
  | some (some c, place) => .cons c (go place)

/-- The characters of a text on one line up to its closing double quote, and what follows. -/
def basicTail : Place → List Char → Scanned
  | _, [] => none
  | .plain, c :: rest =>
    if c = '"' then some ([], rest)
    else if c = '\\' then basicTail .escape rest
    else if isPlain c then .cons c (basicTail .plain rest)
    else none
  | .escape, c :: rest => stepThen (afterEscape c) fun place => basicTail place rest
  | .digits more value, c :: rest =>
    stepThen (afterDigit more value c) fun place => basicTail place rest
  | .gap _, _ :: _ => none

/-- What closes a long text: three quotes, with up to two before them that belong to the text. -/
def closing (quote : Char) : List Char → Scanned
  | a :: b :: c :: rest =>
    if a = quote ∧ b = quote ∧ c = quote then
      let extra := (rest.takeWhile (· = quote)).take 2
      some (extra, rest.drop extra.length)
    else none
  | _ => none

/-- The characters of a long text up to its closing double quotes, and what follows. A backslash at
the end of a line joins it to the next character that is no blank. -/
def longBasicTail : Place → List Char → Scanned
  | _, [] => none
  | place, c :: rest =>
    let isBreak := c = '\n' || (c = '\r' && rest.head? = some '\n')
    let place := match place with
      | .gap true => if isSpace c || isBreak then Place.gap true else .plain
      | place => place
    match place with
    | .plain =>
      match closing '"' (c :: rest) with
      | some closed => some closed
      | none =>
        if c = '\\' then longBasicTail .escape rest
        else if c = '\r' && isBreak then longBasicTail .plain rest
        else if c = '\n' || isPlain c then .cons c (longBasicTail .plain rest)
        else none
    | .escape =>
      if isSpace c then longBasicTail (.gap false) rest
      else if c = '\n' then longBasicTail (.gap true) rest
      else if isBreak then longBasicTail (.gap false) rest
      else stepThen (afterEscape c) fun place => longBasicTail place rest
    | .digits more value => stepThen (afterDigit more value c) fun place => longBasicTail place rest
    | .gap broken =>
      if c = '\n' then longBasicTail (.gap true) rest
      else if isSpace c || isBreak then longBasicTail (.gap broken) rest
      else none

/-- The characters of a long text up to its closing single quotes, and what follows. -/
def longLiteralTail : List Char → Scanned
  | [] => none
  | c :: rest =>
    match closing '\'' (c :: rest) with
    | some closed => some closed
    | none =>
      if c = '\r' && rest.head? = some '\n' then longLiteralTail rest
      else if c = '\n' || isPlain c then .cons c (longLiteralTail rest)
      else none

/-- The characters of a text on one line up to its closing single quote, and what follows. -/
def literalTail (cs : List Char) : Scanned :=
  let isInside := fun c => isPlain c && c != '\''
  match cs.dropWhile isInside with
  | '\'' :: rest => some (cs.takeWhile isInside, rest)
  | _ => none

/-- What follows a line break right after opening quotes. -/
def skipBreak : List Char → List Char
  | '\n' :: rest => rest
  | '\r' :: '\n' :: rest => rest
  | cs => cs

/-- A text on one line. -/
def shortText (cs : List Char) : Scanned :=
  match cs with
  | '"' :: rest => basicTail .plain rest
  | '\'' :: rest => literalTail rest
  | _ => none

/-- A text in any of its four forms. -/
def anyText (cs : List Char) : Scanned :=
  match cs with
  | '"' :: '"' :: '"' :: rest => longBasicTail .plain (skipBreak rest)
  | '\'' :: '\'' :: '\'' :: rest => longLiteralTail (skipBreak rest)
  | _ => shortText cs

/-! ## Writing -/

/-- A character that only an escape can write, in every form of text. -/
def needsEscape (c : Char) : Bool := c != '\n' && !isPlain c

/-- The length of the longest run of a character. -/
def longestRun (q : Char) (cs : List Char) : Nat :=
  (cs.foldl (fun (run, best) c => if c = q then (run + 1, max best (run + 1)) else (0, best))
    (0, 0)).2

/-- The four forms of a text. -/
inductive Form where
  | basic
  | literal
  | longBasic
  | longLiteral
deriving DecidableEq

/-- The form in which a text needs no escape, double quotes and short forms first; failing that, the
one with escapes that its line breaks ask for. -/
def formOf (cs : List Char) : Form :=
  let coded := cs.any needsEscape
  let broken := cs.contains '\n'
  let slashed := cs.contains '\\'
  if !coded && !slashed && !broken && !cs.contains '"' then .basic
  else if !coded && !broken && !cs.contains '\'' then .literal
  else if !coded && !slashed && longestRun '"' cs ≤ 2 then .longBasic
  else if !coded && longestRun '\'' cs ≤ 2 then .longLiteral
  else if broken then .longBasic
  else .basic

/-- How a character other than a double quote is written in a text with escapes. -/
def escapedChar (long : Bool) (c : Char) : List Char :=
  if c = '\x08' then ['\\', 'b']
  else if c = '\t' then ['\\', 't']
  else if c = '\n' then if long then ['\n'] else ['\\', 'n']
  else if c = '\x0c' then ['\\', 'f']
  else if c = '\r' then ['\\', 'r']
  else if c = '\\' then ['\\', '\\']
  else if needsEscape c then ['\\', 'u'] ++ (hexFour c.toNat).map Char.toUpper
  else [c]

/-- The characters of a text with escapes. A double quote is escaped, in a long text only where it
would be the third in a row. -/
def escapedText (long : Bool) : Nat → List Char → List Char
  | _, [] => []
  | run, c :: rest =>
    if c = '"' then
      if long ∧ run < 2 then '"' :: escapedText long (run + 1) rest
      else '\\' :: '"' :: escapedText long 0 rest
    else escapedChar long c ++ escapedText long 0 rest

/-- Opening quotes of a long text; a text with line breaks starts on a line of its own. -/
def longOpening (quotes : String) (cs : List Char) : String :=
  if cs.contains '\n' then quotes ++ "\n" else quotes

/-- A text in one of its forms. -/
def writeAs (form : Form) (cs : List Char) : String :=
  match form with
  | .basic => "\"" ++ String.ofList (escapedText false 0 cs) ++ "\""
  | .literal => "'" ++ String.ofList cs ++ "'"
  | .longBasic => longOpening "\"\"\"" cs ++ String.ofList (escapedText true 0 cs) ++ "\"\"\""
  | .longLiteral => longOpening "'''" cs ++ String.ofList cs ++ "'''"

/-- A text as a value. -/
def writeText (s : String) : String := writeAs (formOf s.toList) s.toList

/-- A character of a key that needs no quotes. -/
def isBare (c : Char) : Bool := c.isAlphanum || c == '-' || c == '_'

/-- A text as a key: without quotes where it can be, else on one line. -/
def writeKey (s : String) : String :=
  let cs := s.toList
  if cs ≠ [] ∧ cs.all isBare then s
  else match formOf cs with
    | .literal => writeAs .literal cs
    | _ => writeAs .basic cs

end Autoscaler.Toml
