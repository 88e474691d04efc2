import Autoscaler.Capacity.Lemmas
import Autoscaler.Enforcement.Engine

/-!
# Decisions

All that a policy decides, and when (`decide_cases`): its rules cannot be evaluated, ask for nothing or
for both directions, or ask for one, and then the policy advances by a step (`advance_cases`). The
verdict on a zone set is such a decision, unless something stands before it (`verdict_cases`).
-/

namespace Autoscaler

/-- The way back. -/
def Direction.opposite : Direction → Direction
  | .up => .down
  | .down => .up

/-- The rules that ask for a step in a direction. -/
def Evaluation.asking (e : Evaluation) : Direction → List Breach
  | .up => e.aboveHigh
  | .down => e.belowLow

/-- Rules ask for nothing, for both directions, or for one of them. -/
theorem Evaluation.asking_cases (e : Evaluation) : e.belowLow = [] ∧ e.aboveHigh = [] ∨
    e.belowLow ≠ [] ∧ e.aboveHigh ≠ [] ∨
    ∃ direction : Direction, e.asking direction ≠ [] ∧ e.asking direction.opposite = [] := by
  by_cases low : e.belowLow = []
  · by_cases high : e.aboveHigh = []
    · exact .inl ⟨low, high⟩
    · exact .inr (.inr ⟨.up, high, low⟩)
  · by_cases high : e.aboveHigh = []
    · exact .inr (.inr ⟨.down, low, high⟩)
    · exact .inr (.inl ⟨low, high⟩)

namespace Policy

variable {p : Policy} {minimum maximum old new : Capacity} {direction : Direction}
  {statistics : Snapshot} {roster : Roster}

/-- One step from the current capacity, cut short by the bound ahead. -/
def stepped (p : Policy) (minimum maximum : Capacity) : Direction → Capacity
  | .up => min (p.current + p.increaseStep) maximum
  | .down => max (p.current - p.decreaseStep) minimum

/-- What is answered where one step in a direction leads nowhere: the policy cannot grow, or it has
shrunk as far as it may. -/
def halted (p : Policy) (maximum : Capacity) : Direction → Verdict
  | .up => .error (.saturated p.current maximum)
  | .down => .ok (.unchanged p.current .atMinimum)

/-- A step in a direction, if it leads anywhere. -/
def advance (p : Policy) (minimum maximum : Capacity) (direction : Direction) : Verdict :=
  if p.stepped minimum maximum direction = p.current then p.halted maximum direction
  else .ok (.applied p.current (p.stepped minimum maximum direction) direction)

theorem advance_cases (p : Policy) (minimum maximum : Capacity) (direction : Direction) :
    p.stepped minimum maximum direction = p.current ∧
      p.advance minimum maximum direction = p.halted maximum direction ∨
    p.stepped minimum maximum direction ≠ p.current ∧ p.advance minimum maximum direction =
      .ok (.applied p.current (p.stepped minimum maximum direction) direction) := by
  rw [advance]
  split
  · rename_i same
    exact .inl ⟨same, rfl⟩
  · rename_i moved
    exact .inr ⟨moved, rfl⟩

theorem plan_halted : (p.halted maximum direction).plan p.current = p.current := by
  cases direction <;> rfl

theorem plan_advance :
    (p.advance minimum maximum direction).plan p.current = p.stepped minimum maximum direction := by
  rcases p.advance_cases minimum maximum direction with ⟨same, halts⟩ | ⟨-, moves⟩
  · rw [halts, plan_halted, same]
  · rw [moves]
    rfl

/-! ## Policies -/

theorem decide_of_unevaluated {fault : RuleFault}
    (failed : evaluate p.rules statistics roster = .error fault) :
    p.decide minimum maximum statistics roster = .error (.unevaluated fault) := by
  simp only [decide, failed]

section
variable {e : Evaluation} (evaluated : evaluate p.rules statistics roster = .ok e)
include evaluated

theorem decide_of_asking (asked : e.asking direction ≠ []) (unopposed : e.asking direction.opposite = []) :
    p.decide minimum maximum statistics roster = p.advance minimum maximum direction := by
  cases direction with
  | up =>
    have high : e.aboveHigh ≠ [] := asked
    have low : e.belowLow = [] := unopposed
    have agreed : e.isConflict = false := by simp [Evaluation.isConflict, low]
    simp only [decide, evaluated, agreed, Bool.false_eq_true, if_false, if_pos high]
    rfl
  | down =>
    have low : e.belowLow ≠ [] := asked
    have high : e.aboveHigh = [] := unopposed
    have agreed : e.isConflict = false := by simp [Evaluation.isConflict, high]
    simp only [decide, evaluated, agreed, Bool.false_eq_true, if_false, high, ne_eq, not_true_eq_false,
      if_pos low]
    rfl

theorem decide_of_conflict (low : e.belowLow ≠ []) (high : e.aboveHigh ≠ []) :
    p.decide minimum maximum statistics roster = .error (.ruleConflict e.belowLow e.aboveHigh) := by
  simp [decide, evaluated, Evaluation.isConflict, low, high]

theorem decide_of_within (low : e.belowLow = []) (high : e.aboveHigh = []) :
    p.decide minimum maximum statistics roster = .ok (.unchanged p.current .withinThresholds) := by
  simp [decide, evaluated, Evaluation.isConflict, low, high]

end

/-- All that can be decided. -/
theorem decide_cases (p : Policy) (minimum maximum : Capacity) (statistics : Snapshot) (roster : Roster) :
    (∃ fault, evaluate p.rules statistics roster = .error fault ∧
      p.decide minimum maximum statistics roster = .error (.unevaluated fault)) ∨
    ∃ e, evaluate p.rules statistics roster = .ok e ∧
      (e.belowLow = [] ∧ e.aboveHigh = [] ∧
          p.decide minimum maximum statistics roster = .ok (.unchanged p.current .withinThresholds) ∨
        e.belowLow ≠ [] ∧ e.aboveHigh ≠ [] ∧ p.decide minimum maximum statistics roster =
          .error (.ruleConflict e.belowLow e.aboveHigh) ∨
        ∃ direction : Direction, e.asking direction ≠ [] ∧ e.asking direction.opposite = [] ∧
          p.decide minimum maximum statistics roster = p.advance minimum maximum direction) := by
  cases evaluated : evaluate p.rules statistics roster with
  | error fault => exact .inl ⟨fault, rfl, decide_of_unevaluated evaluated⟩
  | ok e =>
    refine .inr ⟨e, rfl, ?_⟩
    rcases e.asking_cases with ⟨low, high⟩ | ⟨low, high⟩ | ⟨direction, asked, unopposed⟩
    · exact .inl ⟨low, high, decide_of_within evaluated low high⟩
    · exact .inr (.inl ⟨low, high, decide_of_conflict evaluated low high⟩)
    · exact .inr (.inr ⟨direction, asked, unopposed, decide_of_asking evaluated asked unopposed⟩)

/-- All that a decision can be refused for. -/
theorem refusal_of_decide {r : Refusal}
    (refused : p.decide minimum maximum statistics roster = .error r) :
    (∃ fault, r = .unevaluated fault) ∨ (∃ belowLow aboveHigh, r = .ruleConflict belowLow aboveHigh) ∨
      r = .saturated p.current maximum := by
  obtain ⟨fault, -, decided⟩ | ⟨e, -, ⟨-, -, decided⟩ | ⟨-, -, decided⟩ | ⟨direction, -, -, decided⟩⟩ :=
    p.decide_cases minimum maximum statistics roster
  · cases decided.symm.trans refused
    exact .inl ⟨_, rfl⟩
  · cases decided.symm.trans refused
  · cases decided.symm.trans refused
    exact .inr (.inl ⟨_, _, rfl⟩)
  · rcases p.advance_cases minimum maximum direction with ⟨-, halts⟩ | ⟨-, moves⟩
    · -- A policy that has shrunk as far as it may is not refused.
      cases direction with
      | up =>
        cases (decided.trans halts).symm.trans refused
        exact .inr (.inr rfl)
      | down => cases (decided.trans halts).symm.trans refused
    · cases (decided.trans moves).symm.trans refused

/-- All that an applied change can be: some rule asks for it and none for the opposite. -/
theorem decide_eq_applied
    (applied : p.decide minimum maximum statistics roster = .ok (.applied old new direction)) :
    old = p.current ∧ new ≠ old ∧ new = p.stepped minimum maximum direction ∧
      ∃ e, evaluate p.rules statistics roster = .ok e ∧ e.asking direction ≠ [] ∧
        e.asking direction.opposite = [] := by
  obtain ⟨fault, -, decided⟩ |
      ⟨e, evaluated, ⟨-, -, decided⟩ | ⟨-, -, decided⟩ | ⟨asking, asked, unopposed, decided⟩⟩ :=
    p.decide_cases minimum maximum statistics roster
  · cases decided.symm.trans applied
  · cases decided.symm.trans applied
  · cases decided.symm.trans applied
  · rcases p.advance_cases minimum maximum asking with ⟨-, halts⟩ | ⟨moved, moves⟩
    · cases asking <;> cases (decided.trans halts).symm.trans applied
    · cases (decided.trans moves).symm.trans applied
      exact ⟨rfl, moved, rfl, e, evaluated, asked, unopposed⟩

end Policy

theorem Verdict.change?_eq_some {v : Verdict} {target : Capacity} :
    v.change? = some target ↔ ∃ old direction, v = .ok (.applied old target direction) := by
  constructor
  · intro changed
    match v with
    | .ok (.applied old new direction) =>
      cases changed
      exact ⟨old, direction, rfl⟩
    | .ok (.unchanged _ _) => cases changed
    | .error _ => cases changed
  · rintro ⟨old, direction, rfl⟩
    rfl

/-! ## Zone sets -/

/-- What stands before every decision. -/
theorem precondition?_cases (p : Policy) (status : Cooldown.Status) :
    (∃ error, p.fault? = some error ∧ precondition? p status = some (.invalidPolicy error)) ∨
    p.fault? = none ∧
      ((∃ remaining, status = .active remaining ∧ precondition? p status = some (.cooldown remaining)) ∨
        status = .ready ∧ precondition? p status = none) := by
  cases fault : p.fault? with
  | some error => exact .inl ⟨error, rfl, by simp only [precondition?, fault]⟩
  | none =>
    cases status with
    | active remaining => exact .inr ⟨rfl, .inl ⟨remaining, rfl, by simp only [precondition?, fault]⟩⟩
    | ready => exact .inr ⟨rfl, .inr ⟨rfl, by simp only [precondition?, fault]⟩⟩

theorem precondition?_eq_none {p : Policy} {status : Cooldown.Status} :
    precondition? p status = none ↔ p.fault? = none ∧ status = .ready := by
  cases fault : p.fault? <;> cases status <;> simp [precondition?, fault]

namespace Cycle

variable {c : Cycle} {status : Cooldown.Status} {statistics : Snapshot} {roster : Roster}
  {planned : Allocation} {z : ZoneSet} {p : Policy}

/-- A policy in order whose bounds do not conflict is decided on when no cooldown is active. -/
theorem verdict_eq_decide (statistics : Snapshot) (roster : Roster) (sound : p.fault? = none)
    (ready : status = .ready) (fits : c.minimumFor planned z p ≤ c.maximumFor planned z p) :
    c.verdict status statistics roster planned z p =
      p.decide (c.minimumFor planned z p) (c.maximumFor planned z p) statistics roster := by
  rw [verdict, precondition?_eq_none.mpr ⟨sound, ready⟩]
  simp only [Capacity.firstExceeding?_eq_none.mpr fits]

/-- All that a verdict can be: the policy has a fault, a cooldown is active, the bounds conflict, or
the policy decides. -/
theorem verdict_cases (c : Cycle) (status : Cooldown.Status) (statistics : Snapshot) (roster : Roster)
    (planned : Allocation) (z : ZoneSet) (p : Policy) :
    (∃ error, p.fault? = some error ∧
      c.verdict status statistics roster planned z p = .error (.invalidPolicy error)) ∨
    p.fault? = none ∧
      ((∃ remaining, status = .active remaining ∧
          c.verdict status statistics roster planned z p = .error (.cooldown remaining)) ∨
        status = .ready ∧
          ((∃ d, ¬ c.minimumFor planned z p ≤ c.maximumFor planned z p ∧
              c.verdict status statistics roster planned z p =
                .error (.configurationConflict z (c.minimumFor planned z p) (c.maximumFor planned z p) d)) ∨
            c.minimumFor planned z p ≤ c.maximumFor planned z p ∧
              c.verdict status statistics roster planned z p =
                p.decide (c.minimumFor planned z p) (c.maximumFor planned z p) statistics roster)) := by
  obtain ⟨error, fault, refused⟩ | ⟨sound, ⟨remaining, active, refused⟩ | ⟨ready, passed⟩⟩ :=
    precondition?_cases p status
  · exact .inl ⟨error, fault, by simp only [verdict, refused]⟩
  · exact .inr ⟨sound, .inl ⟨remaining, active, by simp only [verdict, refused]⟩⟩
  · refine .inr ⟨sound, .inr ⟨ready, ?_⟩⟩
    cases conflict : (c.minimumFor planned z p).firstExceeding? (c.maximumFor planned z p) with
    | none =>
      have fits := Capacity.firstExceeding?_eq_none.mp conflict
      exact .inr ⟨fits, verdict_eq_decide statistics roster sound ready fits⟩
    | some d =>
      refine .inl ⟨d, fun fits => ?_, by simp only [verdict, passed, conflict]⟩
      cases conflict.symm.trans (Capacity.firstExceeding?_eq_none.mpr fits)

/-- A zone set is refused, or its policy decides. -/
theorem refused_or_decided (c : Cycle) (status : Cooldown.Status) (statistics : Snapshot) (roster : Roster)
    (planned : Allocation) (z : ZoneSet) (p : Policy) :
    (∃ refusal, c.verdict status statistics roster planned z p = .error refusal) ∨
    p.fault? = none ∧ status = .ready ∧ c.minimumFor planned z p ≤ c.maximumFor planned z p ∧
      c.verdict status statistics roster planned z p =
        p.decide (c.minimumFor planned z p) (c.maximumFor planned z p) statistics roster := by
  obtain ⟨_, -, refused⟩ | ⟨sound, ⟨_, -, refused⟩ | ⟨ready, ⟨_, -, refused⟩ | ⟨fits, decided⟩⟩⟩ :=
    c.verdict_cases status statistics roster planned z p
  · exact .inl ⟨_, refused⟩
  · exact .inl ⟨_, refused⟩
  · exact .inl ⟨_, refused⟩
  · exact .inr ⟨sound, ready, fits, decided⟩

theorem decide_of_verdict_eq_applied {old new : Capacity} {direction : Direction}
    (applied : c.verdict status statistics roster planned z p = .ok (.applied old new direction)) :
    p.fault? = none ∧ c.minimumFor planned z p ≤ c.maximumFor planned z p ∧
      p.decide (c.minimumFor planned z p) (c.maximumFor planned z p) statistics roster =
        .ok (.applied old new direction) := by
  obtain ⟨refusal, refused⟩ | ⟨sound, -, fits, decided⟩ :=
    c.refused_or_decided status statistics roster planned z p
  · cases refused.symm.trans applied
  · exact ⟨sound, fits, decided.symm.trans applied⟩

end Cycle

end Autoscaler
