import Autoscaler.Document.Basic

/-!
# Records in documents

A record has fields in a fixed order. It is written as a table, by the names of its fields, or as a
list, by their positions. By position only those fields may be left out that come last and have a
default. A choice between names is written as a name, or as a table whose one field has that name
and no value to speak of. Notations differ in how much they let through.
-/

namespace Autoscaler

/-- What a notation lets through where a record or a choice is expected. -/
structure Dialect where
  /-- Whether a list may have more items than the record has fields. -/
  surplus : Bool
  /-- Whether a value is as good as none. -/
  isVoid : Document → Bool

namespace Document

/-- Nothing, as a value. -/
def isNull : Document → Bool
  | .null => true
  | _ => false

/-- A list or a table without content. -/
def isEmpty : Document → Bool
  | .list items => items.isEmpty
  | .table fields => fields.isEmpty
  | _ => false

end Document

namespace Dialect

/-- What JSON lets through. -/
def json : Dialect := ⟨false, Document.isNull⟩

/-- What TOML lets through. -/
def toml : Dialect := ⟨true, Document.isEmpty⟩

/-- The fields of a record with the given names, of which the first so many have no default. -/
def record? (dialect : Dialect) (names : List String) (needed : Nat) :
    Document → Option (List (String × Document))
  | .table fields => some fields
  | .list items =>
    if needed ≤ items.length ∧ (dialect.surplus ∨ items.length ≤ names.length) then
      some (names.zip items)
    else none
  | _ => none

/-- The name that is chosen. -/
def choice? (dialect : Dialect) : Document → Option String
  | .text name => some name
  | .table [(name, value)] => if dialect.isVoid value then some name else none
  | _ => none

end Dialect

end Autoscaler
