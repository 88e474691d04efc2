import Autoscaler.Capacity.Lemmas
import Mathlib.Data.List.Basic
import Mathlib.Data.List.Induction
import Mathlib.Tactic.SplitIfs

/-!
# Composed capacities

Capacities come from pairs, from tables and from other capacities. Whatever they were composed of,
they hold in every dimension the amount that arithmetic gives (`Composed.get_eq`), list no dimension
without an amount, and are equal when all their amounts are (`composed_canonical`).
-/

namespace Autoscaler.Capacity

/-- What an amount comes to, from nothing on, when the pairs with its name are met in turn. -/
def tally (meet : Nat → Nat → Nat) (pairs : List (String × Nat)) (d : String) : Nat :=
  pairs.foldl (fun n e => if e.1 = d then meet n e.2 else n) 0

/-- How a capacity may be composed, beside the amount that it is to hold in each dimension. Amounts
that are given, and sums of those under a repeated name, are such as fit. -/
inductive Composed : Capacity → (String → Nat) → Prop
  | zero : Composed 0 fun _ => 0
  | single {d : String} {n : Nat} (fits : n ≤ maxAmount) :
      Composed (single d n) fun o => if o = d then n else 0
  | ofPairs {pairs : List (String × Nat)} (fits : ∀ d, tally (· + ·) pairs d ≤ maxAmount) :
      Composed (ofPairs pairs) (tally (· + ·) pairs)
  | ofEntries {entries : List (String × Nat)} (fits : ∀ d, tally (fun _ n => n) entries d ≤ maxAmount) :
      Composed (ofEntries entries) (tally (fun _ n => n) entries)
  | add {a b f g} (left : Composed a f) (right : Composed b g) :
      Composed (a + b) fun d => min (f d + g d) maxAmount
  | sub {a b f g} (left : Composed a f) (right : Composed b g) :
      Composed (a - b) fun d => f d - g d
  | least {a b f g} (left : Composed a f) (right : Composed b g) :
      Composed (min a b) fun d => min (f d) (g d)
  | greatest {a b f g} (left : Composed a f) (right : Composed b g) :
      Composed (max a b) fun d => max (f d) (g d)
  | sum {cs : List Capacity} {amounts : Capacity → String → Nat}
      (each : ∀ c ∈ cs, Composed c (amounts c)) :
      Composed (sum cs) fun d => min (cs.map fun c => amounts c d).sum maxAmount

variable {a b c : Capacity} {f g : String → Nat} {pairs : List (String × Nat)} {d : String}

theorem tally_eq (meet : Nat → Nat → Nat) (pairs : List (String × Nat)) (d : String) :
    tally meet pairs d = ((pairs.filter (·.1 = d)).map Prod.snd).foldl meet 0 := by
  rw [List.foldl_map, List.foldl_filter, tally]
  simp only [decide_eq_true_eq]

theorem tally_of_not_mem (absent : d ∉ pairs.map Prod.fst) (meet : Nat → Nat → Nat) :
    tally meet pairs d = 0 := by
  have none : pairs.filter (·.1 = d) = [] := by
    rw [List.filter_eq_nil_iff]
    intro e listed same
    exact absent (List.mem_map.mpr ⟨e, listed, of_decide_eq_true same⟩)
  rw [tally_eq, none]
  rfl

/-- The last amount that is met is the first one from behind. -/
theorem tally_last (entries : List (String × Nat)) (d : String) : tally (fun _ n => n) entries d =
    ((entries.reverse.find? (·.1 = d)).map Prod.snd).getD 0 := by
  induction entries using List.reverseRecOn with
  | nil => rfl
  | append_singleton before e ih =>
    have met : tally (fun _ n => n) (before ++ [e]) d =
        if e.1 = d then e.2 else tally (fun _ n => n) before d := by
      simp [tally]
    rw [met, ih, List.reverse_append]
    by_cases same : e.1 = d
    · simp [same]
    · simp [same]

theorem get_ofPairs (pairs : List (String × Nat)) (d : String) :
    (ofPairs pairs).get d = min (tally (· + ·) pairs d) maxAmount := by
  simp only [ofPairs, ← tally_eq]
  exact get_ofFn_of_forall (fun o absent => tally_of_not_mem absent _) d

theorem get_ofEntries (entries : List (String × Nat)) (d : String) :
    (ofEntries entries).get d = min (tally (fun _ n => n) entries d) maxAmount := by
  simp only [ofEntries, ← tally_last]
  exact get_ofFn_of_forall (fun o absent => tally_of_not_mem absent _) d

theorem Composed.get_eq (composed : Composed c f) : ∀ d, c.get d = f d := by
  induction composed with
  | zero => exact get_zero
  | single fits =>
    intro o
    rw [get_single, Nat.min_eq_left fits]
  | ofPairs fits =>
    intro d
    rw [get_ofPairs, Nat.min_eq_left (fits d)]
  | ofEntries fits =>
    intro d
    rw [get_ofEntries, Nat.min_eq_left (fits d)]
  | add _ _ left right =>
    intro d
    rw [get_add, left, right]
  | sub _ _ left right =>
    intro d
    rw [get_sub, left, right]
  | least _ _ left right =>
    intro d
    rw [get_min, left, right]
  | greatest _ _ left right =>
    intro d
    rw [get_max, left, right]
  | sum _ each =>
    intro d
    rw [get_sum, List.map_congr_left fun c listed => each c listed d]

/-- The amounts that a composed capacity is to hold are those that it holds. -/
theorem Composed.self (composed : Composed c f) : Composed c c.get := by
  have same : c.get = f := funext composed.get_eq
  rwa [same]

/-- A composed capacity holds the amounts that arithmetic gives, sums cut at the limit and differences
at zero, and so does what is composed of two of them, in every dimension that either has or lacks. It
lists the dimensions with an amount in ascending order, each of them once, and no others. So it equals
another when all amounts are the same, and zero when none is positive. -/
theorem composed_canonical (left : Composed a f) (right : Composed b g) :
    (∀ d, a.get d = f d ∧
      (a + b).get d = min (a.get d + b.get d) maxAmount ∧ (a - b).get d = a.get d - b.get d ∧
      (min a b).get d = min (a.get d) (b.get d) ∧ (max a b).get d = max (a.get d) (b.get d)) ∧
    (a.toList.Pairwise (fun e o => e.1 < o.1) ∧
      ∀ d n, (d, n) ∈ a.toList ↔ n = f d ∧ n ≠ 0) ∧
    (a = b ↔ ∀ d, f d = g d) ∧
    (a.isZero = true ↔ ∀ d, f d = 0) := by
  have amounts := left.get_eq
  have others := right.get_eq
  refine ⟨fun d => ⟨amounts d, get_add a b d, get_sub a b d, get_min a b d, get_max a b d⟩,
    ⟨ascending_toList a, fun d n => ?_⟩, ?_, ?_⟩
  · rw [mem_toList, amounts]
  · simp only [Capacity.ext_iff, amounts, others]
  · simp only [isZero_iff, eq_zero_iff, amounts]

/-- More memory than fits is cut at the limit, and a processor that is taken off again is not listed.
What is left is the limit of memory, however it was reached. -/
theorem composed_canonical_cancelled :
    let parts := [single "memory" maxAmount, ofPairs [("memory", 2), ("cpu", 1), ("memory", 1)]]
    let left := sum parts - ofEntries [("cpu", 7), ("cpu", 1)]
    let right := max (single "memory" maxAmount) (min (single "cpu" 3) 0)
    Composed left left.get ∧ Composed right right.get ∧ ("memory", maxAmount) ∈ left.toList ∧
      (∀ n, ("cpu", n) ∉ left.toList) ∧ left = right := by
  intro parts left right
  have each : ∀ c ∈ parts, Composed c c.get := by
    intro c listed
    rcases List.mem_pair.mp listed with rfl | rfl
    · exact (Composed.single (Nat.le_refl _)).self
    · refine (Composed.ofPairs fun d => ?_).self
      simp only [tally, List.foldl_cons, List.foldl_nil]
      split_ifs <;> decide
  have taken : Composed (ofEntries [("cpu", 7), ("cpu", 1)]) _ := .ofEntries fun d => by
    simp only [tally, List.foldl_cons, List.foldl_nil]
    split_ifs <;> decide
  have composed : Composed left _ := .sub (.sum each) taken
  have other : Composed right _ :=
    .greatest (.single (Nat.le_refl _)) (.least (.single (by decide)) .zero)
  obtain ⟨-, ⟨-, listed⟩, equal, -⟩ := composed_canonical composed other
  refine ⟨composed.self, other.self, (listed _ _).mpr (by decide +kernel), fun n mem => ?_,
    equal.mpr fun d => ?_⟩
  · obtain ⟨none, some⟩ := (listed _ _).mp mem
    exact some (none.trans (by decide +kernel))
  · by_cases memory : d = "memory"
    · subst memory
      decide +kernel
    · by_cases cpu : d = "cpu"
      · subst cpu
        decide +kernel
      · simp [tally, memory, cpu, Ne.symm memory, Ne.symm cpu, get_single, get_ofPairs, parts]

/-- A zero that is given is not kept either. -/
example : ofEntries [("memory", 5), ("cpu", 0)] = single "memory" 5 ∧ (single "cpu" 0).isZero = true := by
  decide +kernel

end Autoscaler.Capacity
