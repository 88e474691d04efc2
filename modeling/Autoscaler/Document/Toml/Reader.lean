import Autoscaler.Document.Toml.Assembly
import Autoscaler.Document.Toml.Scalar

/-!
# Reading TOML

A text is read into statements, line by line, and the statements are assembled into a table. Lists
and tables within a value, and the names of a key, go less than `depthLimit` deep. The fuel of the
readers bounds the number of their steps; the length of the text is enough.
-/

namespace Autoscaler.Toml

/-- How deep values and keys may not go. -/
def depthLimit : Nat := 80

/-- What follows the blanks of a line. -/
def skipSpace (cs : List Char) : List Char := cs.dropWhile isSpace

/-- What follows the end of a line, blanks and a comment before it included. The end of the text
ends a line, too. -/
def lineEnd? (cs : List Char) : Option (List Char) :=
  let body := match skipSpace cs with
    | '#' :: rest => rest.dropWhile isPlain
    | rest => rest
  match body with
  | [] => some []
  | '\n' :: rest => some rest
  | '\r' :: '\n' :: rest => some rest
  | _ => none

/-- What follows blanks, line breaks and comments. -/
def skipGap : Bool → List Char → Option (List Char)
  | _, [] => some []
  | _, '\r' :: '\n' :: rest => skipGap false rest
  | _, '\n' :: rest => skipGap false rest
  | true, c :: rest => if isPlain c then skipGap true rest else none
  | false, c :: rest =>
    if isSpace c then skipGap false rest
    else if c = '#' then skipGap true rest
    else some (c :: rest)

/-- One name of a key. -/
def name (cs : List Char) : Option (String × List Char) :=
  match cs with
  | [] => none
  | c :: _ =>
    if c = '"' ∨ c = '\'' then (shortText cs).map fun (text, rest) => (String.ofList text, rest)
    else
      let text := cs.takeWhile isBare
      if text = [] then none else some (String.ofList text, cs.dropWhile isBare)

/-- Names with points between them: those before the last one, the last one, and what follows. -/
def names : Nat → List Char → Option (List String × String × List Char)
  | 0, _ => none
  | fuel + 1, cs => do
    let (first, rest) ← name (skipSpace cs)
    match skipSpace rest with
    | '.' :: rest =>
      let (path, last, rest) ← names fuel rest
      return (first :: path, last, rest)
    | rest => return ([], first, rest)

/-- A key: the names before the last one, the last one, and what follows. -/
def key (fuel : Nat) (cs : List Char) : Option (List String × String × List Char) :=
  (names fuel cs).filter fun (path, _) => path.length + 1 < depthLimit

mutual

/-- A value at a depth, no blanks before it. -/
def value (depth : Nat) : Nat → List Char → Option (Document × List Char)
  | 0, _ => none
  | fuel + 1, cs =>
    match cs with
    | [] => none
    | c :: rest =>
      if c = '"' ∨ c = '\'' then
        (anyText cs).map fun (text, rest) => (.text (String.ofList text), rest)
      else if c = '[' then
        if depthLimit ≤ depth + 1 then none
        else (items (depth + 1) fuel rest).map fun (items, rest) => (.list items, rest)
      else if c = '\x7b' then
        if depthLimit ≤ depth + 1 then none
        else match skipSpace rest with
          | '\x7d' :: rest => some (.table [], rest)
          | rest => do
            let (pairs, rest) ← pairs (depth + 1) fuel rest
            return (← assemble pairs, rest)
      else readScalar cs

/-- The items of a list up to its end; a comma may follow the last one. -/
def items (depth : Nat) : Nat → List Char → Option (List Document × List Char)
  | 0, _ => none
  | fuel + 1, cs => do
    match ← skipGap false cs with
    | ']' :: rest => return ([], rest)
    | cs =>
      let (first, rest) ← value depth fuel cs
      match ← skipGap false rest with
      | ',' :: rest =>
        let (others, rest) ← items depth fuel rest
        return (first :: others, rest)
      | ']' :: rest => return ([first], rest)
      | _ => none

/-- The keys and values of a table on one line up to its end, at least one. -/
def pairs (depth : Nat) : Nat → List Char → Option (List Statement × List Char)
  | 0, _ => none
  | fuel + 1, cs => do
    let (path, last, rest) ← key fuel cs
    let (v, rest) ← value depth fuel (skipSpace (← expect? '=' rest))
    match skipSpace rest with
    | ',' :: rest =>
      let (others, rest) ← pairs depth fuel rest
      return (.pair path last v :: others, rest)
    | '\x7d' :: rest => return ([.pair path last v], rest)
    | _ => none

end

/-- A statement with the end of its line. -/
def statement (fuel : Nat) (cs : List Char) : Option (Statement × List Char) :=
  match cs with
  | '[' :: '[' :: rest => do
    let (path, last, rest) ← key fuel rest
    return (.element path last, ← lineEnd? (← expect? ']' (← expect? ']' rest)))
  | '[' :: rest => do
    let (path, last, rest) ← key fuel rest
    return (.header path last, ← lineEnd? (← expect? ']' rest))
  | _ => do
    let (path, last, rest) ← key fuel cs
    let (v, rest) ← value 0 fuel (skipSpace (← expect? '=' rest))
    return (.pair path last v, ← lineEnd? rest)

/-- The statements of a text, empty lines and comments passed over. -/
def statements : Nat → List Char → Option (List Statement)
  | 0, _ => none
  | fuel + 1, cs =>
    match lineEnd? cs with
    | some [] => some []
    | some rest => statements fuel rest
    | none => do
      let (first, rest) ← statement fuel (skipSpace cs)
      return first :: (← statements fuel rest)

/-- The table that a TOML text stands for. A byte order mark at its start is passed over. -/
def read? (s : String) : Option Document :=
  let cs := match s.toList with
    | '\ufeff' :: rest => rest
    | cs => cs
  (statements (cs.length + 1) cs).bind assemble

end Autoscaler.Toml
