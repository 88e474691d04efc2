import Autoscaler.Number.Binary64
import Autoscaler.Number.Word

/-!
# Documents

The tree that a structured text stands for, whatever notation it was written in.
-/

namespace Autoscaler

/-- A value in a document. The fields of a table have distinct names and keep their order. -/
inductive Document where
  | null
  | boolean (b : Bool)
  | integer (n : Int)
  | float (x : Binary64)
  | text (s : String)
  | list (items : List Document)
  | table (fields : List (String × Document))
  /-- A number past the largest one. -/
  | overflow
  /-- A text with half of a surrogate pair, or a table with such a name. -/
  | illFormed

namespace Document

/-- Puts a field into a list of fields, in the place of one with the same name. -/
def put (fields : List (String × Document)) (name : String) (value : Document) :
    List (String × Document) :=
  match fields with
  | [] => [(name, value)]
  | f :: rest => if f.1 = name then (name, value) :: rest else f :: put rest name value

mutual

/-- Whether all texts and names are well-formed. -/
def isWellFormed : Document → Bool
  | .illFormed => false
  | .list items => areWellFormed items
  | .table fields => haveWellFormed fields
  | _ => true

/-- Whether the items of a list are well-formed. -/
def areWellFormed : List Document → Bool
  | [] => true
  | d :: rest => isWellFormed d && areWellFormed rest

/-- Whether the values of fields are well-formed. -/
def haveWellFormed : List (String × Document) → Bool
  | [] => true
  | (_, d) :: rest => isWellFormed d && haveWellFormed rest

end

/-- The fields of a table. -/
def fields? : Document → Option (List (String × Document))
  | .table fields => some fields
  | _ => none

/-- The items of a list. -/
def items? : Document → Option (List Document)
  | .list items => some items
  | _ => none

/-- A text. -/
def text? : Document → Option String
  | .text s => some s
  | _ => none

/-- A truth value. -/
def boolean? : Document → Option Bool
  | .boolean b => some b
  | _ => none

/-- An integer that is not negative and fits 64 bits. -/
def natural? : Document → Option Nat
  | .integer n => if 0 ≤ n ∧ n < wordLimit then some n.toNat else none
  | _ => none

/-- Reads all items of a list. -/
def listOf? {α : Type} (read : Document → Option α) (d : Document) : Option (List α) :=
  d.items?.bind fun items => items.mapM read

/-- Reads all fields of a table. -/
def tableOf? {α : Type} (read : Document → Option α) (d : Document) :
    Option (List (String × α)) :=
  d.fields?.bind fun fields => fields.mapM fun (name, value) => (read value).map fun a => (name, a)

/-- Reads a field that has to be there. -/
def required? {α : Type} (fields : List (String × Document)) (name : String)
    (read : Document → Option α) : Option α :=
  (fields.lookup name).bind read

/-- Reads a field that may be absent or null. -/
def optional? {α : Type} (fields : List (String × Document)) (name : String)
    (read : Document → Option α) : Option (Option α) :=
  match fields.lookup name with
  | none => some none
  | some .null => some none
  | some value => (read value).map some

/-- Reads a field that may be absent but not null. -/
def defaulted? {α : Type} (fields : List (String × Document)) (name : String) (default : α)
    (read : Document → Option α) : Option α :=
  match fields.lookup name with
  | none => some default
  | some value => read value

end Document

end Autoscaler
