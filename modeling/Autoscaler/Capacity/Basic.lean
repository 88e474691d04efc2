import Autoscaler.Number.Word
import Std.Data.ExtTreeMap

/-!
# Capacity

Named amounts of resources such as memory, instances or processors. A dimension without an amount
holds zero, and a zero amount is not kept, so a capacity is exactly the function `get` that it
represents. Amounts end at `maxAmount`; addition stops there and subtraction stops at zero.
-/

namespace Autoscaler

/-- The largest amount of one dimension. -/
def maxAmount : Nat := wordLimit - 1

/-- An amount for each of finitely many named dimensions, each positive and at most `maxAmount`. -/
structure Capacity where
  amounts : Std.ExtTreeMap String Nat
  amount_mem : ∀ (d : String) (n : Nat), amounts[d]? = some n → 0 < n ∧ n ≤ maxAmount
deriving DecidableEq

namespace Capacity

/-- The amount of a dimension, zero where there is none. -/
def get (c : Capacity) (d : String) : Nat := c.amounts.getD d 0

/-- The dimensions with an amount, in ascending order. -/
def dimensions (c : Capacity) : List String := c.amounts.keys

/-- Dimensions and their amounts, in ascending order of the names. -/
def toList (c : Capacity) : List (String × Nat) := c.amounts.toList

/-- The amounts that `f` gives to the listed names, zeros left out and the rest kept within
`maxAmount`. -/
def collect (f : String → Nat) : List String → Std.ExtTreeMap String Nat
  | [] => ∅
  | d :: rest => if f d = 0 then collect f rest else (collect f rest).insert d (min (f d) maxAmount)

theorem getElem?_collect (f : String → Nat) (names : List String) (d : String) :
    (collect f names)[d]? = if d ∈ names ∧ f d ≠ 0 then some (min (f d) maxAmount) else none := by
  induction names with
  | nil => simp [collect]
  | cons name rest ih =>
    rw [collect]
    by_cases none : f name = 0
    · by_cases same : d = name
      · subst same
        rw [if_pos none, ih]
        simp [none]
      · simp [none, ih, same]
    · by_cases same : d = name
      · simp [same, none]
      · simp [none, Std.ExtTreeMap.getElem?_insert, ih, same, Ne.symm same]

/-- The capacity with the amounts that `f` gives to the listed names, and zero elsewhere. -/
def ofFn (names : List String) (f : String → Nat) : Capacity where
  amounts := collect f names
  amount_mem d n found := by
    rw [getElem?_collect] at found
    have top : 0 < maxAmount := by decide
    split at found
    · rename_i listed
      have : min (f d) maxAmount = n := by simpa using found
      omega
    · simp at found

/-- No amount of anything. -/
def zero : Capacity := ofFn [] fun _ => 0

instance : Zero Capacity := ⟨zero⟩

/-- Amounts of several names, those of a repeated name added up. -/
def ofPairs (pairs : List (String × Nat)) : Capacity :=
  ofFn (pairs.map Prod.fst) fun d => ((pairs.filter (·.1 = d)).map Prod.snd).foldl (· + ·) 0

/-- Amounts of several names, the last one standing for a repeated name. -/
def ofEntries (entries : List (String × Nat)) : Capacity :=
  ofFn (entries.map Prod.fst) fun d => ((entries.reverse.find? (·.1 = d)).map Prod.snd).getD 0

/-- An amount of one dimension. -/
def single (d : String) (n : Nat) : Capacity := ofPairs [(d, n)]

/-- Combines two capacities dimension by dimension. -/
def zipWith (f : Nat → Nat → Nat) (a b : Capacity) : Capacity :=
  ofFn (a.dimensions ++ b.dimensions) fun d => f (a.get d) (b.get d)

/-- Sum in every dimension, at most `maxAmount`. -/
instance : Add Capacity := ⟨zipWith (· + ·)⟩

/-- Difference in every dimension, zero where the second is the larger. -/
instance : Sub Capacity := ⟨zipWith (· - ·)⟩

/-- The lesser amount in every dimension. -/
instance : Min Capacity := ⟨zipWith min⟩

/-- The greater amount in every dimension. -/
instance : Max Capacity := ⟨zipWith max⟩

/-- The sum of a list of capacities, from left to right. -/
def sum (cs : List Capacity) : Capacity := cs.foldl (· + ·) 0

/-- No dimension has an amount. -/
def isZero (c : Capacity) : Bool := c.amounts.isEmpty

/-- The first dimension, in ascending order, in which one capacity has more than another. -/
def firstExceeding? (a b : Capacity) : Option String :=
  a.dimensions.find? fun d => b.get d < a.get d

/-- More in every dimension that either of them has, and there is such a dimension. -/
def dominates (a b : Capacity) : Bool :=
  let names := a.dimensions ++ b.dimensions
  !names.isEmpty && names.all fun d => b.get d < a.get d

/-- At most as much in every dimension. -/
instance : LE Capacity := ⟨fun a b => ∀ d, a.get d ≤ b.get d⟩

/-- Dimensions and amounts between braces, `cpu:2, memory:1000`. -/
def text (c : Capacity) : String :=
  "\x7b" ++ ", ".intercalate (c.toList.map fun (d, n) => d ++ ":" ++ toString n) ++ "\x7d"

end Capacity

end Autoscaler
