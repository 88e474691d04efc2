import Autoscaler.Text.Blank
import Autoscaler.Text.Quoted
import Std.Data.ExtTreeSet

/-!
# Zone sets

A zone set names the zones that a group of instances may run in. It is a set: neither order nor
repetition nor blanks around a name make a difference. Its text lists the zones in ascending order
with commas between them.
-/

namespace Autoscaler

/-- A non-empty set of zone names, each without blanks at its ends and not empty. -/
structure ZoneSet where
  names : Std.ExtTreeSet String
  names_ne_empty : names ≠ ∅
  name_mem : ∀ n ∈ names, Text.trim n = n ∧ n ≠ ""
deriving DecidableEq

/-- Why zone names do not make a zone set. -/
inductive ZoneSetError where
  | empty
  | blankZone (written : String)
deriving DecidableEq

/-- The message of an error. -/
def ZoneSetError.message : ZoneSetError → String
  | .empty => "zone set must name at least one zone"
  | .blankZone written => "zone name may not be blank in " ++ Text.quoted written

namespace ZoneSet

/-- The zones of a list of names, none of them blank. -/
def ofPieces (pieces : List String) (any : pieces ≠ []) (named : ∀ p ∈ pieces, Text.trim p ≠ "") :
    ZoneSet where
  names := Std.ExtTreeSet.ofList (pieces.map Text.trim)
  names_ne_empty none := by
    obtain ⟨first, rest, rfl⟩ := List.exists_cons_of_ne_nil any
    have mem : Text.trim first ∈ Std.ExtTreeSet.ofList ((first :: rest).map Text.trim) := by
      simp [Std.ExtTreeSet.mem_ofList]
    rw [none] at mem
    simp at mem
  name_mem n mem := by
    have listed : n ∈ pieces.map Text.trim := by simpa [Std.ExtTreeSet.mem_ofList] using mem
    obtain ⟨p, piece, rfl⟩ := List.mem_map.mp listed
    exact ⟨Text.trim_trim p, named p piece⟩

/-- The zone set of a list of names. A name is taken whole, commas included. -/
def ofNames (names : List String) : Except ZoneSetError ZoneSet :=
  if any : names = [] then .error .empty
  else if named : ∀ n ∈ names, Text.trim n ≠ "" then .ok (ofPieces names any named)
  else .error (.blankZone "")

/-- The pieces of a text between its commas. -/
def pieces (s : String) : List String := (s.toList.splitOn ',').map String.ofList

theorem pieces_ne_nil (s : String) : pieces s ≠ [] := by
  simp [pieces, List.splitOn_ne_nil]

/-- Reads zone names separated by commas. -/
def parse (s : String) : Except ZoneSetError ZoneSet :=
  if Text.trim s = "" then .error .empty
  else if named : ∀ p ∈ pieces s, Text.trim p ≠ "" then
    .ok (ofPieces (pieces s) (pieces_ne_nil s) named)
  else .error (.blankZone s)

/-- The zones in ascending order. -/
def zones (z : ZoneSet) : List String := z.names.toList

/-- The zones in ascending order with commas between them. -/
def text (z : ZoneSet) : String := ",".intercalate z.zones

/-- The zone set of a workload that is not divided by zones. -/
def whole : ZoneSet := ofPieces ["default"] (by decide) (by decide)

instance : Membership String ZoneSet := ⟨fun z zone => zone ∈ z.names⟩

instance (zone : String) (z : ZoneSet) : Decidable (zone ∈ z) :=
  inferInstanceAs (Decidable (zone ∈ z.names))

theorem mem_iff {zone : String} {z : ZoneSet} : zone ∈ z ↔ zone ∈ z.names := Iff.rfl

/-- The listed zones are exactly the zones. -/
@[simp] theorem mem_zones {zone : String} {z : ZoneSet} : zone ∈ z.zones ↔ zone ∈ z :=
  Std.ExtTreeSet.mem_toList

/-- The zones of pieces are the pieces without the blanks at their ends. -/
theorem mem_ofPieces {pieces : List String} {any named} {zone : String} :
    zone ∈ ofPieces pieces any named ↔ ∃ p ∈ pieces, Text.trim p = zone := by
  rw [mem_iff, ofPieces, Std.ExtTreeSet.mem_ofList, List.contains_iff_mem, List.mem_map]

/-- Two zone sets with the same zones are equal. -/
@[ext] theorem ext {a b : ZoneSet} (same : ∀ zone, zone ∈ a ↔ zone ∈ b) : a = b := by
  obtain ⟨na, _, _⟩ := a
  obtain ⟨nb, _, _⟩ := b
  have : na = nb := Std.ExtTreeSet.ext_mem same
  subst this
  rfl

/-- Zone sets are ordered as their ascending lists of zones. -/
instance : Ord ZoneSet := ⟨compareOn zones⟩

instance : Std.TransOrd ZoneSet := inferInstanceAs (Std.TransCmp (compareOn zones))

instance : Std.LawfulEqOrd ZoneSet where
  eq_of_compare {a b} same := by
    have lists : a.zones = b.zones := Std.LawfulEqOrd.eq_of_compare same
    have : a.names = b.names := Std.ExtTreeSet.toList_inj.mp lists
    cases a
    cases b
    cases this
    rfl

end ZoneSet

end Autoscaler
