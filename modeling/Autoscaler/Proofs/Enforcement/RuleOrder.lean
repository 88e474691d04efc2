import Autoscaler.Proofs.Enforcement.Faults
import Autoscaler.Proofs.Enforcement.Steps

/-!
# The order of rules

Rules are looked at in order: a policy is searched for a rule that agrees with an earlier one, and an
evaluation ends with the first rule that cannot be evaluated. The order shows in which rule is reported
and in the order of the breaches, and in nothing else (`enforce_reordered`).
-/

namespace Autoscaler

/-! ## Rules that agree -/

theorem Binary64.agrees_comm (a b : Binary64) : a.agrees b = b.agrees a := by
  cases a with
  | nan => cases b <;> rfl
  | signed s m =>
    cases b with
    | nan => rfl
    | signed t n =>
      rw [Bool.eq_iff_iff]
      simp only [agrees, order?, beq_iff_eq, Option.some.injEq, Int.compare_eq_eq]
      exact eq_comm

theorem StatValue.agrees_comm (a b : StatValue) : a.agrees b = b.agrees a := by
  cases a <;> cases b
  case float.float => exact Binary64.agrees_comm _ _
  all_goals simp [agrees, Bool.beq_comm]

theorem Rule.agrees_comm (a b : Rule) : a.agrees b = b.agrees a := by
  simp only [agrees, StatValue.agrees_comm a.low, StatValue.agrees_comm a.high,
    Bool.beq_comm (a := a.statistic)]

namespace Policy

/-- No rule is repeated when no two rules agree, whichever is the earlier one. -/
theorem repeatedRule?_eq_none {rules : List Rule} :
    repeatedRule? rules = none ↔ rules.Pairwise fun a b => a.agrees b = false := by
  rw [repeatedRule?, Option.map_eq_none_iff, List.find?_eq_none, List.pairwise_iff_getElem]
  simp only [List.any_eq_true, not_exists, not_and, Bool.not_eq_true]
  constructor
  · intro none i j _ later less
    rw [Rule.agrees_comm]
    exact none (rules[j], j) (List.mem_zipIdx_iff_getElem?.mpr (by simp)) _
      (List.mem_take_iff_getElem.mpr ⟨i, by omega, rfl⟩)
  · rintro apart ⟨r, j⟩ listed a earlier
    have found : rules[j]? = some r := List.mem_zipIdx_iff_getElem?.mp listed
    obtain ⟨later, rfl⟩ := List.getElem?_eq_some_iff.mp found
    obtain ⟨i, before, rfl⟩ := List.mem_take_iff_getElem.mp earlier
    rw [Rule.agrees_comm]
    exact apart i j _ later (by omega)

theorem Sound.reordered {p : Policy} {rules : List Rule} (order : rules.Perm p.rules) (sound : p.Sound) :
    Sound { p with rules } where
  rules := fun none => sound.rules (List.perm_nil.mp (none ▸ order.symm))
  distinct := repeatedRule?_eq_none.mpr <|
    (order.pairwise_iff fun apart => (Rule.agrees_comm _ _).trans apart).mpr
      (repeatedRule?_eq_none.mp sound.distinct)
  increase := sound.increase
  decrease := sound.decrease
  most := sound.most
  least := sound.least
  least_le_most := sound.least_le_most
  ordered r listed := sound.ordered r (order.mem_iff.mp listed)

/-- Rules in another order have a fault exactly when these have one. -/
theorem fault?_reordered {p : Policy} {rules : List Rule} (order : rules.Perm p.rules) :
    fault? { p with rules } = none ↔ p.fault? = none := by
  rw [fault?_eq_none, fault?_eq_none]
  exact ⟨Sound.reordered (p := { p with rules }) order.symm, Sound.reordered order⟩

end Policy

/-! ## Verdicts that differ in an order -/

/-- The same breaches on each side, in whatever order. -/
structure Evaluation.Reordered (e f : Evaluation) : Prop where
  below : e.belowLow.Perm f.belowLow
  above : e.aboveHigh.Perm f.aboveHigh

/-- The same verdict, but for the order of breaches, and for which rule it is that cannot be
evaluated. -/
inductive Verdict.Reordered : Verdict → Verdict → Prop where
  | decided (d : Decision) : Verdict.Reordered (.ok d) (.ok d)
  | unevaluated (fault other : RuleFault) :
      Verdict.Reordered (.error (.unevaluated fault)) (.error (.unevaluated other))
  | ruleConflict {e f : Evaluation} (same : e.Reordered f) :
      Verdict.Reordered (.error (.ruleConflict e.belowLow e.aboveHigh))
        (.error (.ruleConflict f.belowLow f.aboveHigh))
  | saturated (current maximum : Capacity) :
      Verdict.Reordered (.error (.saturated current maximum)) (.error (.saturated current maximum))
  | cooldown (remaining : Duration) :
      Verdict.Reordered (.error (.cooldown remaining)) (.error (.cooldown remaining))

variable {statistics : Snapshot} {roster : Roster} {rules : List Rule}

namespace Evaluation.Reordered

variable {e f : Evaluation} (same : e.Reordered f)
include same

theorem asking (direction : Direction) : (e.asking direction).Perm (f.asking direction) := by
  cases direction with
  | up => exact same.above
  | down => exact same.below

theorem asking_eq_nil (direction : Direction) : e.asking direction = [] ↔ f.asking direction = [] := by
  rw [← List.length_eq_zero_iff, ← List.length_eq_zero_iff, (same.asking direction).length_eq]

end Evaluation.Reordered

theorem evaluate_reordered {other : List Rule} {e : Evaluation} (order : rules.Perm other)
    (evaluated : evaluate other statistics roster = .ok e) :
    ∃ f, evaluate rules statistics roster = .ok f ∧ f.Reordered e := by
  obtain ⟨each, rfl⟩ := evaluate_eq_ok.mp evaluated
  refine ⟨_, evaluate_eq_ok.mpr ⟨fun r listed => each r (order.mem_iff.mp listed), rfl⟩, ?_⟩
  exact ⟨order.filterMap _, order.filterMap _⟩

theorem Policy.reordered_advance (p : Policy) (minimum maximum : Capacity) (direction : Direction) :
    (p.advance minimum maximum direction).Reordered (p.advance minimum maximum direction) := by
  rcases p.advance_cases minimum maximum direction with ⟨-, halts⟩ | ⟨-, moves⟩
  · rw [halts]
    cases direction with
    | up => exact .saturated _ _
    | down => exact .decided _
  · rw [moves]
    exact .decided _

theorem Policy.decide_reordered {p : Policy} {minimum maximum : Capacity} (order : rules.Perm p.rules) :
    Verdict.Reordered (({ p with rules } : Policy).decide minimum maximum statistics roster)
      (p.decide minimum maximum statistics roster) := by
  cases evaluated : evaluate p.rules statistics roster with
  | error fault =>
    -- Were the rules evaluated in the other order, they would be in this one.
    have failed : ∃ other, evaluate rules statistics roster = .error other := by
      cases found : evaluate rules statistics roster with
      | error other => exact ⟨other, rfl⟩
      | ok f =>
        obtain ⟨e, succeeded, -⟩ := evaluate_reordered order.symm found
        cases evaluated.symm.trans succeeded
    obtain ⟨other, failed⟩ := failed
    have failed : evaluate ({ p with rules } : Policy).rules statistics roster = .error other := failed
    rw [decide_of_unevaluated evaluated, decide_of_unevaluated failed]
    exact .unevaluated other fault
  | ok e =>
    obtain ⟨f, found, same⟩ := evaluate_reordered order evaluated
    have found : evaluate ({ p with rules } : Policy).rules statistics roster = .ok f := found
    rcases e.asking_cases with ⟨low, high⟩ | ⟨low, high⟩ | ⟨direction, asked, unopposed⟩
    · have low' := (same.asking_eq_nil .down).mpr low
      have high' := (same.asking_eq_nil .up).mpr high
      rw [decide_of_within evaluated low high, decide_of_within found low' high']
      exact .decided _
    · have low' := (same.asking_eq_nil .down).not.mpr low
      have high' := (same.asking_eq_nil .up).not.mpr high
      rw [decide_of_conflict evaluated low high, decide_of_conflict found low' high']
      exact .ruleConflict same
    · have asked' := (same.asking_eq_nil direction).not.mpr asked
      have unopposed' := (same.asking_eq_nil direction.opposite).mpr unopposed
      rw [decide_of_asking evaluated asked unopposed, decide_of_asking found asked' unopposed']
      exact p.reordered_advance minimum maximum direction

theorem Verdict.Reordered.change?_eq {v w : Verdict} (same : v.Reordered w) : v.change? = w.change? := by
  cases same <;> rfl

namespace Engine

variable {e : Engine} {p : Policy} {now : Nat}

/-- Policies lead to the same state of an engine when they make the same change. -/
theorem enforce_snd_eq {q : Policy} (same : (e.enforce q statistics roster now).1.change? =
    (e.enforce p statistics roster now).1.change?) :
    (e.enforce q statistics roster now).2 = (e.enforce p statistics roster now).2 := by
  show { e with gate := _, latest := record e.latest .whole (e.enforce q statistics roster now).1 } =
    { e with gate := _, latest := record e.latest .whole (e.enforce p statistics roster now).1 }
  simp only [record, same]

/-- Rules in another order are accepted if these are, and then lead to the same verdict, but for the
order of the breaches in a conflict, and for which rule it is that cannot be evaluated. The engine is
afterwards in the same state. -/
theorem enforce_reordered (order : rules.Perm p.rules) (e : Engine) (statistics : Snapshot)
    (roster : Roster) (now : Nat) :
    let reordered : Policy := { p with rules }
    (reordered.fault? = none ↔ p.fault? = none) ∧
      (p.fault? = none → Verdict.Reordered (e.enforce reordered statistics roster now).1
        (e.enforce p statistics roster now).1) ∧
      (e.enforce reordered statistics roster now).2 = (e.enforce p statistics roster now).2 := by
  intro reordered
  have accepted : reordered.fault? = none ↔ p.fault? = none := Policy.fault?_reordered order
  have alike (sound : p.fault? = none) : Verdict.Reordered (e.enforce reordered statistics roster now).1
      (e.enforce p statistics roster now).1 := by
    cases status : e.statusAt roster now with
    | active remaining =>
      rw [enforce_of_waiting (accepted.mpr sound) status, enforce_of_waiting sound status]
      exact .cooldown remaining
    | ready =>
      rw [enforce_of_ready (accepted.mpr sound) status, enforce_of_ready sound status]
      exact Policy.decide_reordered order
  refine ⟨accepted, alike, enforce_snd_eq ?_⟩
  cases fault : p.fault? with
  | none => exact (alike fault).change?_eq
  | some error =>
    obtain ⟨other, found⟩ : ∃ other, reordered.fault? = some other :=
      Option.ne_none_iff_exists'.mp (accepted.not.mpr (by simp [fault]))
    rw [enforce_of_fault fault, enforce_of_fault found]
    rfl

/-- Two rules ask for less and one for more. In another order they are reported in that order. -/
theorem enforce_reordered_conflict :
    let rule (low high : Int64) : Rule :=
      ⟨⟨"cpu", .avg, .ofMillis 300000, none, none⟩, .integer low, .integer high⟩
    let p := { tenToHundred 50 with rules := [rule 20 80, rule 96 99, rule 97 98] }
    let rules := [rule 97 98, rule 20 80, rule 96 99]
    let reordered := { p with rules }
    let e := Engine.new "web" .default
    let roster := Roster.ofList [("vm", "east")]
    rules.Perm p.rules ∧ p.fault? = none ∧ reordered.fault? = none ∧
      (e.enforce reordered busy roster 0).1 ≠ (e.enforce p busy roster 0).1 ∧
      Verdict.Reordered (e.enforce reordered busy roster 0).1 (e.enforce p busy roster 0).1 ∧
      (e.enforce reordered busy roster 0).2 = (e.enforce p busy roster 0).2 := by
  intro rule p rules reordered e roster
  have order : rules.Perm p.rules := by decide
  have sound : p.fault? = none := by decide +kernel
  obtain ⟨accepted, alike, after⟩ := enforce_reordered order e busy roster 0
  exact ⟨order, sound, accepted.mpr sound, by decide +kernel, alike sound, after⟩

end Engine

end Autoscaler
