import Autoscaler.Document.Basic

/-!
# Assembling TOML tables

Statements of a TOML text define tables piece by piece. A header may open a table once, and only one
that no key has defined; a dotted key may extend only what dotted keys have defined; no value may be
given twice; a header in double brackets opens a new element of a list of tables.
-/

namespace Autoscaler.Toml

/-- A statement: a value for a key, or a header that says which table the following keys belong to.
The last name of a path stands apart. -/
inductive Statement where
  | pair (path : List String) (key : String) (value : Document)
  | header (path : List String) (key : String)
  | element (path : List String) (key : String)

/-- How a table came to be: by a longer header, by a dotted key, or by a header of its own. -/
inductive Origin where
  | implied
  | dotted
  | header
deriving DecidableEq

/-- What stands in a table under construction. -/
inductive Item where
  | value (d : Document)
  | table (origin : Origin) (fields : List (String × Item))
  | tables (elements : List (List (String × Item)))

namespace Item

/-- Puts a field in the place of the one with its name, or at the end. -/
def put (fields : List (String × Item)) (name : String) (item : Item) : List (String × Item) :=
  match fields with
  | [] => [(name, item)]
  | f :: rest => if f.1 = name then (name, item) :: rest else f :: put rest name item

mutual

/-- The document that an item stands for. -/
def document : Item → Document
  | .value d => d
  | .table _ fields => .table (documentFields fields)
  | .tables elements => .list (documentElements elements)

/-- The fields of a table. -/
def documentFields : List (String × Item) → List (String × Document)
  | [] => []
  | (name, item) :: rest => (name, document item) :: documentFields rest

/-- The elements of a list of tables. -/
def documentElements : List (List (String × Item)) → List Document
  | [] => []
  | fields :: rest => .table (documentFields fields) :: documentElements rest

end

end Item

/-- What happens to the fields of a table, given how the table came to be. -/
abbrev Change := Origin → List (String × Item) → Option (List (String × Item))

/-- Applies a change to the table that a path leads to. Tables on the way are created as they are
needed; of a list of tables, the path goes through the last element. A path of a dotted key does not
go through tables that have a header. -/
def alter (byDots : Bool) (change : Change) :
    List String → Origin → List (String × Item) → Option (List (String × Item))
  | [], origin, fields => change origin fields
  | name :: path, _, fields =>
    match fields.lookup name with
    | none =>
      let origin := if byDots then Origin.dotted else Origin.implied
      (alter byDots change path origin []).map fun inner => fields ++ [(name, .table origin inner)]
    | some (.value _) => none
    | some (.table origin inner) =>
      if byDots ∧ origin = .header then none
      else (alter byDots change path origin inner).map fun inner =>
        Item.put fields name (.table origin inner)
    | some (.tables elements) =>
      match elements.getLast? with
      | none => none
      | some last => (alter byDots change path .header last).map fun last =>
        Item.put fields name (.tables (elements.dropLast ++ [last]))

/-- Gives a key its value. Only a table made by dotted keys takes dotted keys, and it takes no
others. -/
def definePair (path : List String) (key : String) (value : Document) : Change :=
  alter true (fun origin fields =>
    if (origin = .dotted) = (path = []) then none
    else if (fields.lookup key).isSome then none
    else some (fields ++ [(key, .value value)])) path

/-- Opens the table of a header. -/
def openTable (key : String) : Change := fun _ fields =>
  match fields.lookup key with
  | none => some (fields ++ [(key, .table .header [])])
  | some (.table .implied inner) => some (Item.put fields key (.table .header inner))
  | some _ => none

/-- Opens a new element of a list of tables. -/
def openElement (key : String) : Change := fun _ fields =>
  match fields.lookup key with
  | none => some (fields ++ [(key, .tables [[]])])
  | some (.tables elements) => some (Item.put fields key (.tables (elements ++ [[]])))
  | some _ => none

/-- A document under construction: its fields, and the path of the latest header. -/
structure Draft where
  fields : List (String × Item)
  current : List String

/-- Takes one statement into account. -/
def Draft.add (d : Draft) : Statement → Option Draft
  | .pair path key value =>
    (alter false (definePair path key value) d.current .header d.fields).map (⟨·, d.current⟩)
  | .header path key =>
    (alter false (openTable key) path .header d.fields).map (⟨·, path ++ [key]⟩)
  | .element path key =>
    (alter false (openElement key) path .header d.fields).map (⟨·, path ++ [key]⟩)

/-- The table that statements define. -/
def assemble (statements : List Statement) : Option Document := do
  let draft ← statements.foldlM Draft.add ⟨[], []⟩
  return .table (Item.documentFields draft.fields)

end Autoscaler.Toml
