import Autoscaler.Proofs.Enforcement.History
import Autoscaler.Proofs.Enforcement.Reservation
import Autoscaler.Proofs.Policy
import Mathlib.Data.List.Forall2

/-!
# Workloads that are not divided

A workload that is not divided by zones can be enforced in two forms: its policy alone, or a cycle
with one zone set. Totals that leave the policy its bounds make no difference between the two, whatever
was enforced last (`verdict_undivided`), and neither does the form in which an engine was asked before
(`forms_agree`).
-/

namespace Autoscaler

namespace Cycle

/-- The cycle of a workload that is not divided. -/
def undivided (p : Policy) (totalMax totalMin : Capacity) (held : Allocation) : Cycle :=
  ⟨Std.ExtTreeMap.insert ∅ .whole p, totalMax, totalMin, held⟩

/-- Between the bounds of its own policy, a zone set is decided on as if there were no others: a policy
without fault has no conflict between them. -/
theorem verdict_of_own_bounds {c : Cycle} {planned : Allocation} {z : ZoneSet} {p : Policy}
    (most : c.maximumFor planned z p = p.maxCapacity) (least : c.minimumFor planned z p = p.minCapacity)
    (status : Cooldown.Status) (statistics : Snapshot) (roster : Roster) :
    c.verdict status statistics roster planned z p = match precondition? p status with
      | some refusal => .error refusal
      | none => p.decide p.minCapacity p.maxCapacity statistics roster := by
  cases refused : precondition? p status with
  | some refusal => simp [verdict, refused]
  | none =>
    obtain ⟨sound, ready⟩ := precondition?_eq_none.mp refused
    have fits := (Policy.fault?_eq_none.mp sound).least_le_most
    rw [verdict_eq_decide statistics roster sound ready (by rwa [most, least]), most, least]

section
variable {p : Policy} {totalMax totalMin : Capacity} {held planned : Allocation}

theorem maximumFor_undivided (most : p.maxCapacity ≤ totalMax) :
    (undivided p totalMax totalMin held).maximumFor planned .whole p = p.maxCapacity := by
  have only : (undivided p totalMax totalMin held).zoneSets = [.whole] := rfl
  refine Holdings.maximumFor_eq (nodup_zoneSets (c := undivided p totalMax totalMin held))
    (by simp [holdings, only]) fun d => ?_
  have room := most d
  rwa [holdings, only, List.length_singleton, Nat.one_mul]

theorem minimumFor_undivided (least : totalMin ≤ p.minCapacity) :
    (undivided p totalMax totalMin held).minimumFor planned .whole p = p.minCapacity := by
  have only : (undivided p totalMax totalMin held).zoneSets = [.whole] := rfl
  refine Holdings.minimumFor_eq (nodup_zoneSets (c := undivided p totalMax totalMin held))
    (by simp [holdings, only]) fun d => ?_
  have covered := least d
  rwa [holdings, only, List.length_singleton, Nat.one_mul]

/-- With no other zone set to leave room for, the bounds are those of the policy. -/
theorem verdict_undivided (most : p.maxCapacity ≤ totalMax) (least : totalMin ≤ p.minCapacity)
    (status : Cooldown.Status) (statistics : Snapshot) (roster : Roster) :
    (undivided p totalMax totalMin held).verdict status statistics roster planned .whole p =
      match precondition? p status with
      | some refusal => .error refusal
      | none => p.decide p.minCapacity p.maxCapacity statistics roster :=
  verdict_of_own_bounds (maximumFor_undivided most) (minimumFor_undivided least) status statistics roster

end

end Cycle

/-- To enforce a policy on a workload that is not divided, in either form. -/
inductive Aim.Enforces (p : Policy) : Aim → Prop where
  | policy : Enforces p (.policy p)
  | cycle {totalMax totalMin : Capacity} (most : p.maxCapacity ≤ totalMax)
    (least : totalMin ≤ p.minCapacity) (held : Allocation) :
    Enforces p (.cycle (.undivided p totalMax totalMin held))

/-- Demands that are equal, or that differ only in the form in which a policy is to be enforced. -/
inductive Demand.Alike : Demand → Demand → Prop where
  | refl (x : Demand) : Alike x x
  | forms {p : Policy} {first second : Aim} (one : first.Enforces p) (other : second.Enforces p)
    (statistics : Snapshot) (roster : Roster) (now : Nat) :
    Alike ⟨first, statistics, roster, now⟩ ⟨second, statistics, roster, now⟩

/-- The verdicts of an answer. One on the whole workload is one on its only zone set. -/
def Answer.verdicts : Answer → List (ZoneSet × Verdict)
  | .whole v => [(.whole, v)]
  | .each verdicts => verdicts

namespace Engine

/-- Engines with the same cooldown and the same latest targets. -/
structure Even (e f : Engine) : Prop where
  gate : e.gate = f.gate
  latest : e.latest = f.latest

theorem Even.symm {e f : Engine} (even : e.Even f) : f.Even e := ⟨even.gate.symm, even.latest.symm⟩

theorem Even.trans {e f g : Engine} (first : e.Even f) (second : f.Even g) : e.Even g :=
  ⟨first.gate.trans second.gate, first.latest.trans second.latest⟩

variable {e f : Engine}

theorem Even.meet (even : e.Even f) (x : Demand) :
    (e.meet x).1 = (f.meet x).1 ∧ (e.meet x).2.Even (f.meet x).2 := by
  refine ⟨(meetAlike_of_gate_eq even.gate x).answer, ?_, ?_⟩
  · rw [gate_meet, gate_meet, even.gate]
  · cases aim : x.aim <;>
      simp [Engine.meet, aim, enforce, enforceCycle, observed, even.gate, even.latest]

theorem enforceCycle_undivided {p : Policy} {totalMax totalMin : Capacity}
    (most : p.maxCapacity ≤ totalMax) (least : totalMin ≤ p.minCapacity) (held : Allocation) (e : Engine)
    (statistics : Snapshot) (roster : Roster) (now : Nat) :
    (e.enforceCycle (.undivided p totalMax totalMin held) statistics roster now).1 =
        [(.whole, (e.enforce p statistics roster now).1)] ∧
      (e.enforceCycle (.undivided p totalMax totalMin held) statistics roster now).2.Even
        (e.enforce p statistics roster now).2 := by
  have decided : (Cycle.undivided p totalMax totalMin held).verdict (e.statusAt roster now) statistics
      roster .empty .whole p = (e.enforce p statistics roster now).1 :=
    Cycle.verdict_undivided most least _ statistics roster
  refine ⟨?_, rfl, ?_⟩
  · show [(ZoneSet.whole, (Cycle.undivided p totalMax totalMin held).verdict (e.statusAt roster now)
      statistics roster .empty .whole p)] = _
    rw [decided]
  · show record e.latest .whole ((Cycle.undivided p totalMax totalMin held).verdict
      (e.statusAt roster now) statistics roster .empty .whole p) = _
    rw [decided]
    rfl

theorem meet_of_enforces {p : Policy} {aim : Aim} (form : aim.Enforces p) (e : Engine)
    (statistics : Snapshot) (roster : Roster) (now : Nat) :
    (e.meet ⟨aim, statistics, roster, now⟩).1.verdicts =
        [(.whole, (e.enforce p statistics roster now).1)] ∧
      (e.meet ⟨aim, statistics, roster, now⟩).2.Even (e.enforce p statistics roster now).2 := by
  cases form with
  | policy => exact ⟨rfl, rfl, rfl⟩
  | cycle most least held => exact enforceCycle_undivided most least held e statistics roster now

theorem Even.meet_alike (even : e.Even f) {x y : Demand} (alike : x.Alike y) :
    (e.meet x).1.verdicts = (f.meet y).1.verdicts ∧ (e.meet x).2.Even (f.meet y).2 := by
  obtain ⟨answer, after⟩ := even.meet y
  cases alike with
  | refl => exact ⟨congrArg Answer.verdicts answer, after⟩
  | forms one other statistics roster now =>
    obtain ⟨first, firstEven⟩ := meet_of_enforces one e statistics roster now
    obtain ⟨second, secondEven⟩ := meet_of_enforces other e statistics roster now
    rw [← answer, first, second]
    exact ⟨rfl, (firstEven.trans secondEven.symm).trans after⟩

theorem Even.meetAll (even : e.Even f) {first second : List Demand}
    (alike : List.Forall₂ Demand.Alike first second) :
    (e.meetAll first).1.map Answer.verdicts = (f.meetAll second).1.map Answer.verdicts ∧
      (e.meetAll first).2.Even (f.meetAll second).2 := by
  induction alike generalizing e f with
  | nil => exact ⟨rfl, even⟩
  | cons one _ ih =>
    obtain ⟨answer, after⟩ := even.meet_alike one
    obtain ⟨answers, last⟩ := ih after
    simp only [Engine.meetAll, List.map_cons]
    rw [answer, answers]
    exact ⟨rfl, last⟩

/-- The policy of a workload that is not divided is enforced by a cycle with one zone set as it is
alone: with the same verdict, the same cooldown and the same latest targets. Engines that were asked
the same things in different forms therefore agree throughout. -/
theorem forms_agree (e : Engine) :
    (∀ (p : Policy) (totalMax totalMin : Capacity), p.maxCapacity ≤ totalMax →
      totalMin ≤ p.minCapacity → ∀ (held : Allocation) (statistics : Snapshot) (roster : Roster)
      (now : Nat),
      (e.enforceCycle (.undivided p totalMax totalMin held) statistics roster now).1 =
          [(.whole, (e.enforce p statistics roster now).1)] ∧
        (e.enforceCycle (.undivided p totalMax totalMin held) statistics roster now).2.Even
          (e.enforce p statistics roster now).2) ∧
    ∀ first second : List Demand, List.Forall₂ Demand.Alike first second →
      (e.meetAll first).1.map Answer.verdicts = (e.meetAll second).1.map Answer.verdicts ∧
        (e.meetAll first).2.Even (e.meetAll second).2 := by
  constructor
  · intro p totalMax totalMin most least held statistics roster now
    exact enforceCycle_undivided most least held e statistics roster now
  · intro first second alike
    exact Even.meetAll ⟨rfl, rfl⟩ alike

/-- Asked in one form and then in the other, two engines grow the workload and then wait for a new
instance. -/
theorem forms_agree_waiting :
    let e := Engine.new "web" .default
    let cycle := fun p => Aim.cycle (.undivided p (.single "memory" 3000) 0 .empty)
    let first := [asking .policy 95 ["vm"] 0, asking cycle 95 ["vm", "new"] 1000]
    let second := [asking cycle 95 ["vm"] 0, asking .policy 95 ["vm", "new"] 1000]
    List.Forall₂ Demand.Alike first second ∧
      (e.meetAll first).1.map Answer.verdicts = (e.meetAll second).1.map Answer.verdicts ∧
      (e.meetAll first).2.Even (e.meetAll second).2 ∧
      (e.meetAll second).1.map Answer.verdicts =
        [[(.whole, .ok (.applied (.single "memory" 1000) (.single "memory" 1300) .up))],
          [(.whole, .error (.cooldown (.minutes 2)))]] := by
  intro e cycle first second
  have alike : List.Forall₂ Demand.Alike first second := by
    refine .cons (.forms .policy (.cycle ?_ ?_ _) _ _ _)
      (.cons (.forms (.cycle ?_ ?_ _) .policy _ _ _) .nil)
    all_goals decide
  obtain ⟨answers, even⟩ := (forms_agree e).2 first second alike
  exact ⟨alike, answers, even, by decide +kernel⟩

end Engine

end Autoscaler
