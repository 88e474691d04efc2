import Autoscaler.Document.Basic
import Autoscaler.Document.Toml.Text

/-!
# Writing TOML

A table is written as its direct values, then as sections for the tables in it, each under a header
and after an empty line. A table that holds nothing but tables has no header. A list of tables is
written as one section for each element, a list of two or more other values over several lines.
-/

namespace Autoscaler.Toml

/-- A table, or a list that is not empty and holds only tables. -/
def isSectioned : Document → Bool
  | .table _ => true
  | .list items => !items.isEmpty && items.all fun d => d.fields?.isSome
  | _ => false

/-- Some values under a header. -/
structure Section where
  path : List String
  isElement : Bool
  pairs : List (String × Document)

/-- The fields of a table that are written under its own header. -/
def directPairs (fields : List (String × Document)) : List (String × Document) :=
  fields.filter fun f => !isSectioned f.2

mutual

/-- The sections of a value with a path. -/
def sectionsOf (path : List String) : Document → List Section
  | .table fields =>
    let inner := sectionsOfFields path fields
    if fields.isEmpty || !(directPairs fields).isEmpty then
      ⟨path, false, directPairs fields⟩ :: inner
    else inner
  | .list items =>
    if !items.isEmpty && items.all fun d => d.fields?.isSome then sectionsOfItems path items else []
  | _ => []

/-- The sections of the fields of a table. -/
def sectionsOfFields (path : List String) : List (String × Document) → List Section
  | [] => []
  | (name, d) :: rest => sectionsOf (path ++ [name]) d ++ sectionsOfFields path rest

/-- The sections of a list of tables. -/
def sectionsOfItems (path : List String) : List Document → List Section
  | [] => []
  | .table fields :: rest =>
    ⟨path, true, directPairs fields⟩ :: sectionsOfFields path fields ++ sectionsOfItems path rest
  | _ :: rest => sectionsOfItems path rest

end

mutual

/-- A value on the right of an equals sign. -/
def valueText : Document → String
  | .boolean b => if b then "true" else "false"
  | .integer n => toString n
  | .float x => x.documentText
  | .text s => writeText s
  | .list items =>
    match itemTexts items with
    | [] => "[]"
    | [item] => "[" ++ item ++ "]"
    | several => "[" ++ String.join (several.map fun item => "\n    " ++ item ++ ",") ++ "\n]"
  | .table fields =>
    match pairTexts fields with
    | [] => "\x7b\x7d"
    | several => "\x7b " ++ ", ".intercalate several ++ " \x7d"
  | _ => ""

/-- The items of a list. -/
def itemTexts : List Document → List String
  | [] => []
  | d :: rest => valueText d :: itemTexts rest

/-- Keys and values. -/
def pairTexts : List (String × Document) → List String
  | [] => []
  | (name, d) :: rest => (writeKey name ++ " = " ++ valueText d) :: pairTexts rest

end

/-- The header of a section. -/
def Section.header (s : Section) : String :=
  let path := ".".intercalate (s.path.map writeKey)
  if s.isElement then "[[" ++ path ++ "]]\n" else "[" ++ path ++ "]\n"

/-- Lines of keys and values. -/
def pairLines (pairs : List (String × Document)) : String :=
  String.join ((pairTexts pairs).map (· ++ "\n"))

/-- A section with its header. -/
def Section.text (s : Section) : String := s.header ++ pairLines s.pairs

/-- The text of a table: what has no header first, then the sections, with empty lines between. -/
def write (fields : List (String × Document)) : String :=
  let direct := directPairs fields
  let sections := (sectionsOfFields [] fields).map Section.text
  "\n".intercalate ((if direct.isEmpty then [] else [pairLines direct]) ++ sections)

end Autoscaler.Toml
