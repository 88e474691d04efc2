import Autoscaler.Document.Basic
import Autoscaler.Text.Hexadecimal

/-!
# Writing JSON

On one line without blanks, or spread over lines with two blanks of indentation for each level.
-/

namespace Autoscaler.Json

/-- How one character is written in a text. -/
def escapedChar (c : Char) : List Char :=
  if c = '"' then ['\\', '"']
  else if c = '\\' then ['\\', '\\']
  else if c = '\x08' then ['\\', 'b']
  else if c = '\x0c' then ['\\', 'f']
  else if c = '\n' then ['\\', 'n']
  else if c = '\r' then ['\\', 'r']
  else if c = '\t' then ['\\', 't']
  else if c.toNat < 0x20 then ['\\', 'u'] ++ Text.hexFour c.toNat
  else [c]

/-- A text between quotes. -/
def textLiteral (s : String) : String :=
  "\"" ++ String.ofList (s.toList.flatMap escapedChar) ++ "\""

/-- A value that is neither a list nor a table. -/
def scalar : Document → String
  | .boolean b => if b then "true" else "false"
  | .integer n => toString n
  | .float x => x.documentText
  | .text s => textLiteral s
  | _ => "null"

mutual

/-- A document on one line. -/
def compact : Document → String
  | .list items => "[" ++ ",".intercalate (compactItems items) ++ "]"
  | .table fields => "\x7b" ++ ",".intercalate (compactFields fields) ++ "\x7d"
  | d => scalar d

/-- The items of a list. -/
def compactItems : List Document → List String
  | [] => []
  | d :: rest => compact d :: compactItems rest

/-- The fields of a table. -/
def compactFields : List (String × Document) → List String
  | [] => []
  | (name, d) :: rest => (textLiteral name ++ ":" ++ compact d) :: compactFields rest

end

/-- The start of a line at a level. -/
def lineStart (level : Nat) : String := "\n" ++ String.ofList (List.replicate (2 * level) ' ')

/-- Parts between brackets, each on a line of its own. -/
def block (level : Nat) (opening closing : String) (parts : List String) : String :=
  if parts = [] then opening ++ closing
  else opening ++ ",".intercalate (parts.map (lineStart (level + 1) ++ ·)) ++ lineStart level ++
    closing

mutual

/-- A document over several lines, its first one begun at a level. -/
def prettyAt (level : Nat) : Document → String
  | .list items => block level "[" "]" (prettyItems (level + 1) items)
  | .table fields => block level "\x7b" "\x7d" (prettyFields (level + 1) fields)
  | d => scalar d

/-- The items of a list. -/
def prettyItems (level : Nat) : List Document → List String
  | [] => []
  | d :: rest => prettyAt level d :: prettyItems level rest

/-- The fields of a table. -/
def prettyFields (level : Nat) : List (String × Document) → List String
  | [] => []
  | (name, d) :: rest => (textLiteral name ++ ": " ++ prettyAt level d) :: prettyFields level rest

end

/-- A document over several lines. -/
def pretty (d : Document) : String := prettyAt 0 d

end Autoscaler.Json
