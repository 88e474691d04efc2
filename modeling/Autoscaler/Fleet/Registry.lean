import Autoscaler.Enforcement.Engine

/-!
# The registry of engines

At most one live engine for each workload.
-/

namespace Autoscaler

/-- Why an engine was not created or not found. -/
inductive RegistryError where
  | alreadyExists (workload : String)
  | notFound (workload : String)
deriving DecidableEq

/-- The message of an error. -/
def RegistryError.message : RegistryError → String
  | .alreadyExists w => "enforcement endpoint already exists for workload: " ++ w
  | .notFound w => "no enforcement endpoint for workload: " ++ w

/-- The live engines by the ids of their workloads. -/
structure Registry where
  engines : Std.ExtTreeMap String Engine
deriving DecidableEq

namespace Registry

/-- No engines. -/
def empty : Registry := ⟨∅⟩

/-- The engine of a workload. -/
def get? (r : Registry) (w : String) : Option Engine := r.engines[w]?

/-- Whether a workload has an engine. -/
def contains (r : Registry) (w : String) : Bool := r.engines.contains w

/-- Puts an engine in the place of the workload's own. -/
def set (r : Registry) (w : String) (e : Engine) : Registry := ⟨r.engines.insert w e⟩

/-- Creates the engine of a workload that has none. -/
def create (r : Registry) (w : String) (windows : Cooldown.Windows) :
    Except RegistryError Registry :=
  if r.contains w then .error (.alreadyExists w) else .ok (r.set w (.new w windows))

/-- Removes the engine of a workload and returns it. -/
def destroy (r : Registry) (w : String) : Except RegistryError (Engine × Registry) :=
  match r.get? w with
  | some e => .ok (e, ⟨r.engines.erase w⟩)
  | none => .error (.notFound w)

/-- The workloads with an engine, in ascending order. -/
def workloads (r : Registry) : List String := r.engines.keys

/-- How many engines there are. -/
def size (r : Registry) : Nat := r.engines.size

theorem contains_eq (r : Registry) (w : String) : r.contains w = (r.get? w).isSome :=
  Std.ExtTreeMap.contains_eq_isSome_getElem?

theorem mem_workloads {r : Registry} {w : String} : w ∈ r.workloads ↔ (r.get? w).isSome := by
  rw [workloads, Std.ExtTreeMap.mem_keys, Std.ExtTreeMap.mem_iff_isSome_getElem?]
  rfl

@[simp] theorem get?_empty (w : String) : empty.get? w = none := Std.ExtTreeMap.getElem?_empty

@[simp] theorem get?_set (r : Registry) (w other : String) (e : Engine) :
    (r.set w e).get? other = if w = other then some e else r.get? other := by
  simp only [get?, set, Std.ExtTreeMap.getElem?_insert, Std.LawfulEqCmp.compare_eq_iff_eq]

end Registry

end Autoscaler
