import Autoscaler.Proofs.Enforcement.Plan
import Autoscaler.Proofs.Traversal

/-!
# The direction of changes

A change is applied when some rules ask for it and none asks for the opposite
(`evaluation_of_change?`). A zone set within its bounds therefore never shrinks while no rule is below
its low threshold, and never grows while none is above its high one.
-/

namespace Autoscaler

/-- A rule can be assessed, and its value stands there. -/
def Rule.Stands (r : Rule) (statistics : Snapshot) (roster : Roster) (standing : Standing) : Prop :=
  ∃ b, r.assess statistics roster = .ok (b, standing)

/-! ## Evaluations -/

variable {statistics : Snapshot} {roster : Roster}

theorem Evaluation.mem_select {standing : Standing} {assessed : List (Breach × Standing)} {b : Breach} :
    b ∈ select standing assessed ↔ (b, standing) ∈ assessed := by
  simp [select]

theorem select_eq_nil {rules : List Rule} {assessed : List (Breach × Standing)} {standing : Standing}
    (all : List.Forall₂ (fun r a => r.assess statistics roster = .ok a) rules assessed)
    (none : ∀ r ∈ rules, ¬ r.Stands statistics roster standing) :
    Evaluation.select standing assessed = [] := by
  refine List.eq_nil_iff_forall_not_mem.mpr fun b mem => ?_
  obtain ⟨r, listed, stands⟩ := exists_mem_of_forall₂ all (Evaluation.mem_select.mp mem)
  exact none r listed ⟨b, stands⟩

theorem exists_assessed {rules : List Rule} {e : Evaluation}
    (evaluated : evaluate rules statistics roster = .ok e) :
    ∃ assessed, List.Forall₂ (fun r a => r.assess statistics roster = .ok a) rules assessed ∧
      e = .ofAssessed assessed := by
  obtain ⟨assessed, all, sorted⟩ := bind_eq_ok.mp evaluated
  exact ⟨assessed, mapM_eq_ok.mp all, (Except.ok.inj sorted).symm⟩

theorem belowLow_eq_nil {rules : List Rule} {e : Evaluation}
    (evaluated : evaluate rules statistics roster = .ok e)
    (none : ∀ r ∈ rules, ¬ r.Stands statistics roster .below) : e.belowLow = [] := by
  obtain ⟨assessed, all, rfl⟩ := exists_assessed evaluated
  exact select_eq_nil all none

theorem aboveHigh_eq_nil {rules : List Rule} {e : Evaluation}
    (evaluated : evaluate rules statistics roster = .ok e)
    (none : ∀ r ∈ rules, ¬ r.Stands statistics roster .above) : e.aboveHigh = [] := by
  obtain ⟨assessed, all, rfl⟩ := exists_assessed evaluated
  exact select_eq_nil all none

/-! ## Changes -/

theorem Policy.evaluation_of_change? {p : Policy} {minimum maximum target : Capacity}
    (applied : (p.decide minimum maximum statistics roster).change? = some target) :
    target ≠ p.current ∧ ∃ e, evaluate p.rules statistics roster = .ok e ∧
      (e.aboveHigh ≠ [] ∧ target = min (p.current + p.increaseStep) maximum ∨
        e.belowLow ≠ [] ∧ target = max (p.current - p.decreaseStep) minimum) := by
  obtain ⟨old, direction, decided⟩ := Verdict.change?_eq_some.mp applied
  obtain ⟨rfl, moved, rfl, e, evaluated, asked, -⟩ := decide_eq_applied decided
  refine ⟨moved, e, evaluated, ?_⟩
  cases direction with
  | up => exact .inl ⟨asked, rfl⟩
  | down => exact .inr ⟨asked, rfl⟩

namespace Cycle

variable {c : Cycle} {status : Cooldown.Status} {planned : Allocation} {z : ZoneSet} {p : Policy}
  {target : Capacity}

theorem evaluation_of_change?
    (applied : (c.verdict status statistics roster planned z p).change? = some target) :
    target ≠ p.current ∧ ∃ e, evaluate p.rules statistics roster = .ok e ∧
      (e.aboveHigh ≠ [] ∧ target = min (p.current + p.increaseStep) (c.maximumFor planned z p) ∨
        e.belowLow ≠ [] ∧ target = max (p.current - p.decreaseStep) (c.minimumFor planned z p)) := by
  obtain ⟨old, direction, verdict⟩ := Verdict.change?_eq_some.mp applied
  obtain ⟨-, -, decided⟩ := decide_of_verdict_eq_applied verdict
  exact Policy.evaluation_of_change? (Verdict.change?_eq_some.mpr ⟨old, direction, decided⟩)

variable (applied : (c.verdict status statistics roster planned z p).change? = some target)
include applied

/-- While no rule is below its low threshold, a zone set under its maximum only grows. -/
theorem current_le_of_change? (unseen : ∀ r ∈ p.rules, ¬ r.Stands statistics roster .below)
    (within : p.current ≤ c.maximumFor planned z p) : p.current ≤ target := by
  obtain ⟨-, e, evaluated, ⟨-, rfl⟩ | ⟨low, -⟩⟩ := evaluation_of_change? applied
  · intro d
    have room := within d
    have kept := p.current.get_le d
    rw [Capacity.get_min, Capacity.get_add]
    omega
  · exact absurd (belowLow_eq_nil evaluated unseen) low

/-- While no rule is above its high threshold, a zone set over its minimum only shrinks. -/
theorem le_current_of_change? (unseen : ∀ r ∈ p.rules, ¬ r.Stands statistics roster .above)
    (within : c.minimumFor planned z p ≤ p.current) : target ≤ p.current := by
  obtain ⟨-, e, evaluated, ⟨high, -⟩ | ⟨-, rfl⟩⟩ := evaluation_of_change? applied
  · exact absurd (aboveHigh_eq_nil evaluated unseen) high
  · intro d
    have room := within d
    rw [Capacity.get_max, Capacity.get_sub]
    omega

end Cycle

end Autoscaler
