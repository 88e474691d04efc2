import Autoscaler.Proofs.Enforcement.Plan
import Autoscaler.Proofs.Policy

/-!
# Steps

An applied change is a step up or down from what the zone set holds, as its rules ask, and the bound
that lies ahead cuts it short (`decide_eq_applied`). The bound behind is not looked at. Who starts on
the far side of it may end there (`between_bounds_iff`), and who starts beyond the bound ahead is taken
back to it, against the direction of the step (`leads_unless_past`).
-/

namespace Autoscaler

/-- The second number lies in the direction of the first, or they are the same. -/
def Direction.Leads : Direction → Nat → Nat → Prop
  | .up, a, b => a ≤ b
  | .down, a, b => b ≤ a

/-- The bound that a step in a direction goes towards. -/
def Direction.ahead (minimum maximum : Capacity) : Direction → Capacity
  | .up => maximum
  | .down => minimum

namespace Policy

variable {p : Policy} {minimum maximum old new : Capacity} {direction : Direction}
  {statistics : Snapshot} {roster : Roster}

/-- The step as such gets to the near side of the bound behind it. -/
def Reenters (p : Policy) (minimum maximum : Capacity) : Direction → Prop
  | .up => minimum ≤ p.current + p.increaseStep
  | .down => p.current - p.decreaseStep ≤ maximum

theorem stepped_leads_ahead (d : String) :
    direction.Leads ((p.stepped minimum maximum direction).get d)
      ((direction.ahead minimum maximum).get d) := by
  cases direction with
  | up =>
    simp only [stepped, Direction.Leads, Direction.ahead, Capacity.get_min]
    exact Nat.min_le_right _ _
  | down =>
    simp only [stepped, Direction.Leads, Direction.ahead, Capacity.get_max]
    exact Nat.le_max_right _ _

/-- A step leads its way unless it starts past the bound ahead. -/
theorem current_leads_stepped_iff (d : String) :
    direction.Leads (p.current.get d) ((p.stepped minimum maximum direction).get d) ↔
      direction.Leads (p.current.get d) ((direction.ahead minimum maximum).get d) := by
  have kept := p.current.get_le d
  cases direction with
  | up =>
    simp only [stepped, Direction.Leads, Direction.ahead, Capacity.get_min, Capacity.get_add]
    omega
  | down =>
    simp only [stepped, Direction.Leads, Direction.ahead, Capacity.get_max, Capacity.get_sub]
    omega

/-- A step from past the bound ahead goes back to it. -/
theorem stepped_eq_ahead (d : String)
    (past : ¬ direction.Leads (p.current.get d) ((direction.ahead minimum maximum).get d)) :
    (p.stepped minimum maximum direction).get d = (direction.ahead minimum maximum).get d := by
  have kept := p.current.get_le d
  cases direction with
  | up =>
    simp only [stepped, Direction.Leads, Direction.ahead, Capacity.get_min, Capacity.get_add] at past ⊢
    omega
  | down =>
    simp only [stepped, Direction.Leads, Direction.ahead, Capacity.get_max, Capacity.get_sub] at past ⊢
    omega

theorem reenters_of_between (least : minimum ≤ p.current) (most : p.current ≤ maximum) :
    p.Reenters minimum maximum direction := by
  cases direction with
  | up =>
    intro d
    have kept := p.current.get_le d
    have := least d
    rw [Capacity.get_add]
    omega
  | down =>
    intro d
    have := most d
    rw [Capacity.get_sub]
    omega

theorem stepped_between_iff (fits : minimum ≤ maximum) :
    minimum ≤ p.stepped minimum maximum direction ∧ p.stepped minimum maximum direction ≤ maximum ↔
      p.Reenters minimum maximum direction := by
  simp only [Capacity.le_iff] at fits ⊢
  cases direction with
  | up =>
    simp only [stepped, Reenters, Capacity.le_iff, Capacity.get_min, Capacity.get_add]
    constructor
    · rintro ⟨least, -⟩ d
      have := least d
      omega
    · intro least
      refine ⟨fun d => ?_, fun d => by omega⟩
      have := least d
      have := fits d
      omega
  | down =>
    simp only [stepped, Reenters, Capacity.le_iff, Capacity.get_max, Capacity.get_sub]
    constructor
    · rintro ⟨-, most⟩ d
      have := most d
      omega
    · intro most
      refine ⟨fun d => by omega, fun d => ?_⟩
      have := most d
      have := fits d
      omega

end Policy

/-! ## Changes that an engine applies -/

variable {minimum maximum old new : Capacity} {direction : Direction} {statistics : Snapshot}
  {roster : Roster}

namespace Engine

section
variable {e : Engine} {now : Nat} {p : Policy}

theorem enforce_of_fault {error : PolicyError} (fault : p.fault? = some error) :
    (e.enforce p statistics roster now).1 = .error (.invalidPolicy error) := by
  simp only [enforce, precondition?, fault]

theorem enforce_of_waiting {remaining : Duration} (sound : p.fault? = none)
    (waiting : e.statusAt roster now = .active remaining) :
    (e.enforce p statistics roster now).1 = .error (.cooldown remaining) := by
  have waiting : (e.observed roster now).status now = .active remaining := waiting
  simp only [enforce, precondition?, sound, waiting]

theorem enforce_of_ready (sound : p.fault? = none) (ready : e.statusAt roster now = .ready) :
    (e.enforce p statistics roster now).1 = p.decide p.minCapacity p.maxCapacity statistics roster := by
  have ready : (e.observed roster now).status now = .ready := ready
  simp only [enforce, precondition?, sound, ready]

end

/-- A change that an engine applies to a policy between bounds: to one enforced on its own between
those of the policy, to that of a zone set in turn between those computed from the plans so far. -/
inductive Applies (e : Engine) (statistics : Snapshot) (roster : Roster) (now : Nat) (p : Policy) :
    Capacity → Capacity → Capacity → Capacity → Direction → Prop where
  | alone {old new : Capacity} {direction : Direction}
      (applied : (e.enforce p statistics roster now).1 = .ok (.applied old new direction)) :
      Applies e statistics roster now p p.minCapacity p.maxCapacity old new direction
  | inTurn {c : Cycle} {before : List (ZoneSet × Policy)} {z : ZoneSet} {old new : Capacity}
      {direction : Direction} (turn : c.Turn before z p)
      (applied : (z, .ok (.applied old new direction)) ∈ (e.enforceCycle c statistics roster now).1) :
      Applies e statistics roster now p
        (c.minimumFor (c.plans (e.statusAt roster now) statistics roster before) z p)
        (c.maximumFor (c.plans (e.statusAt roster now) statistics roster before) z p) old new direction

variable {e : Engine} {now : Nat} {p : Policy}

/-- What is applied was decided on, by a policy without fault and between bounds in order. -/
theorem Applies.decided (applied : e.Applies statistics roster now p minimum maximum old new direction) :
    p.fault? = none ∧ minimum ≤ maximum ∧
      p.decide minimum maximum statistics roster = .ok (.applied old new direction) := by
  cases applied with
  | alone applied =>
    simp only [enforce] at applied
    split at applied
    · cases applied
    · rename_i refused
      have sound := (precondition?_eq_none.mp refused).1
      exact ⟨sound, (Policy.fault?_eq_none.mp sound).least_le_most, applied⟩
  | inTurn turn applied =>
    have verdict := (mem_enforceCycle_of_turn turn).mp applied
    exact Cycle.decide_of_verdict_eq_applied verdict.symm

/-- A change that an engine applies ends at the near side of the bound ahead. It ends within both
bounds exactly when the step reaches back over the one behind, as it does from within. -/
theorem between_bounds_iff
    (applied : e.Applies statistics roster now p minimum maximum old new direction) :
    (minimum ≤ new ∧ new ≤ maximum ↔ p.Reenters minimum maximum direction) ∧
      (∀ d, direction.Leads (new.get d) ((direction.ahead minimum maximum).get d)) ∧
      (minimum ≤ old → old ≤ maximum → minimum ≤ new ∧ new ≤ maximum) := by
  obtain ⟨-, fits, decided⟩ := applied.decided
  obtain ⟨rfl, -, rfl, -⟩ := Policy.decide_eq_applied decided
  refine ⟨Policy.stepped_between_iff fits, Policy.stepped_leads_ahead, ?_⟩
  intro least most
  exact (Policy.stepped_between_iff fits).mpr (Policy.reenters_of_between least most)

/-- A policy for 10 to 100 of memory, whatever it holds. -/
def tenToHundred (memory : Nat) : Policy where
  current := .single "memory" memory
  rules := [⟨⟨"cpu", .avg, .ofMillis 300000, none, none⟩, .integer 20, .integer 80⟩]
  increaseStep := .single "memory" 1
  decreaseStep := .single "memory" 1
  maxCapacity := .single "memory" 100
  minCapacity := .single "memory" 10

/-- One instance that is busy. -/
def busy : Snapshot :=
  .ofList [(⟨"cpu", .avg, .ofMillis 300000, none, none⟩, ⟨.integer 95, .ofList ["vm"]⟩)]

theorem between_bounds_iff_within :
    ((Engine.new "web" .default).enforce (tenToHundred 50) busy (.ofList [("vm", "east")]) 0).1 =
        .ok (.applied (.single "memory" 50) (.single "memory" 51) .up) ∧
      (tenToHundred 50).minCapacity ≤ .single "memory" 51 ∧
      .single "memory" 51 ≤ (tenToHundred 50).maxCapacity := by
  have applied : ((Engine.new "web" .default).enforce (tenToHundred 50) busy (.ofList [("vm", "east")]) 0).1 =
      .ok (.applied (.single "memory" 50) (.single "memory" 51) .up) := by decide +kernel
  refine ⟨applied, (between_bounds_iff (.alone applied)).2.2 ?_ ?_⟩
  · decide +kernel
  · decide +kernel

/-- From below the minimum, one step up may end there too. -/
theorem applied_below_minimum :
    (tenToHundred 1).fault? = none ∧
      ((Engine.new "web" .default).enforce (tenToHundred 1) busy (.ofList [("vm", "east")]) 0).1 =
        .ok (.applied (.single "memory" 1) (.single "memory" 2) .up) ∧
      ¬ (tenToHundred 1).minCapacity ≤ .single "memory" 2 := by
  decide +kernel

/-- The direction of a change is that of the threshold which some rule has crossed, and no rule has
crossed the other. The change leads there in every dimension that is not past the bound ahead, and
takes the others back to that bound. -/
theorem leads_unless_past
    (applied : e.Applies statistics roster now p minimum maximum old new direction) :
    new ≠ old ∧
      (∃ found, evaluate p.rules statistics roster = .ok found ∧ found.asking direction ≠ [] ∧
        found.asking direction.opposite = []) ∧
      ∀ d, (direction.Leads (old.get d) (new.get d) ↔
          direction.Leads (old.get d) ((direction.ahead minimum maximum).get d)) ∧
        (¬ direction.Leads (old.get d) ((direction.ahead minimum maximum).get d) →
          new.get d = (direction.ahead minimum maximum).get d) := by
  obtain ⟨-, -, decided⟩ := applied.decided
  obtain ⟨rfl, moved, rfl, asked⟩ := Policy.decide_eq_applied decided
  refine ⟨moved, asked, ?_⟩
  intro d
  exact ⟨Policy.current_leads_stepped_iff d, Policy.stepped_eq_ahead d⟩

theorem leads_unless_past_in_turn :
    let c : Cycle := ⟨.insert ∅ .whole (tenToHundred 50), .single "memory" 60, 0, .empty⟩
    (ZoneSet.whole, Except.ok (.applied (.single "memory" 50) (.single "memory" 51) .up)) ∈
        ((Engine.new "web" .default).enforceCycle c busy (.ofList [("vm", "east")]) 0).1 ∧
      (Direction.up.Leads ((Capacity.single "memory" 50).get "memory")
          ((Capacity.single "memory" 51).get "memory") ↔
        Direction.up.Leads ((Capacity.single "memory" 50).get "memory")
          ((c.maximumFor .empty .whole (tenToHundred 50)).get "memory")) := by
  intro c
  have turn : c.Turn [] .whole (tenToHundred 50) := by
    rw [Cycle.Turn]
    decide +kernel
  have applied : (ZoneSet.whole, Except.ok (.applied (.single "memory" 50) (.single "memory" 51) .up)) ∈
      ((Engine.new "web" .default).enforceCycle c busy (.ofList [("vm", "east")]) 0).1 := by
    decide +kernel
  exact ⟨applied, ((leads_unless_past (.inTurn turn applied)).2.2 "memory").1⟩

/-- From past the maximum, a step up goes down. -/
theorem applied_up_to_less :
    (tenToHundred 200).fault? = none ∧
      ((Engine.new "web" .default).enforce (tenToHundred 200) busy (.ofList [("vm", "east")]) 0).1 =
        .ok (.applied (.single "memory" 200) (.single "memory" 100) .up) ∧
      ¬ Capacity.single "memory" 200 ≤ .single "memory" 100 := by
  decide +kernel

end Engine

end Autoscaler
