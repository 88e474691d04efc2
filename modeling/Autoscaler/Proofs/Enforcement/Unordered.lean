import Autoscaler.Proofs.Enforcement.Faults
import Autoscaler.Proofs.Enforcement.Justification
import Autoscaler.Proofs.Enforcement.Standing

/-!
# Thresholds without an order

A number has no order with a text that is none, and what is not a number has no order with anything. A
policy may still have such thresholds. Its rule is reported once a value is held against them, and then
nothing changes, unless the value evades them (`reported_iff_not_evades`). A value below the low
threshold does, as the high one is not looked at then. So does a text that is a number, where it is held
against the one threshold as a text and against the other as a number.
-/

namespace Autoscaler

namespace StatValue

variable {a b : StatValue}

/-- A value with a place on the line of numbers: a number, or a text that is read as one. -/
def isPlaced (a : StatValue) : Bool := a.place?.isSome

/-- Values have an order when both are texts or both have a place on the line of numbers. -/
theorem exists_order : (∃ o, a.order b = .ok o) ↔
    a.isText = true ∧ b.isText = true ∨ a.isPlaced = true ∧ b.isPlaced = true := by
  by_cases texts : a.isText = true ∧ b.isText = true
  · cases a <;> cases b <;> simp [isText] at texts
    simp [order, isText]
  · by_cases integers : a.isInteger = true ∧ b.isInteger = true
    · cases a <;> cases b <;> simp [isInteger] at integers
      simp [order, isPlaced, place?_integer]
    · simp only [order_of_mixed ⟨texts, integers⟩, numericOrder_eq_ok, isPlaced,
        Option.isSome_iff_exists, texts, false_or]
      constructor
      · rintro ⟨-, x, y, first, second, -⟩
        exact ⟨⟨x, first⟩, y, second⟩
      · rintro ⟨⟨x, first⟩, y, second⟩
        exact ⟨_, x, y, first, second, rfl⟩

end StatValue

namespace Rule

variable {r : Rule} {v : StatValue} {cause : CompareError}

/-- The value is below the low threshold, or it is a text with a place on the line of numbers, and so
has an order with a threshold that is a text and with one that is a number. -/
def Evades (r : Rule) (v : StatValue) : Prop :=
  v.order r.low = .ok .lt ∨ v.isText = true ∧ v.isPlaced = true ∧
    (r.low.isText = true ∧ r.high.isPlaced = true ∨ r.high.isText = true ∧ r.low.isPlaced = true)

theorem compares_iff_evades (apart : r.low.order r.high = .error cause) : r.Compares v ↔ r.Evades v := by
  have unordered : ¬ ∃ o, r.low.order r.high = .ok o := by simp [apart]
  rw [StatValue.exists_order] at unordered
  constructor
  · rintro ⟨o, low, further⟩
    by_cases less : o = .lt
    · exact .inl (low.trans (congrArg _ less))
    · -- With both thresholds the value has an order, but not of one kind: they would have one too.
      have first := StatValue.exists_order.mp ⟨o, low⟩
      have second := StatValue.exists_order.mp (further less)
      exact .inr (by tauto)
  · rintro (below | ⟨text, placed, between⟩)
    · exact ⟨_, below, fun notLess => absurd rfl notLess⟩
    · obtain ⟨o, low⟩ : ∃ o, v.order r.low = .ok o := StatValue.exists_order.mpr (by tauto)
      exact ⟨o, low, fun _ => StatValue.exists_order.mpr (by tauto)⟩

end Rule

namespace Policy

variable {p : Policy} {r : Rule} {cause : CompareError}

/-- A rule whose thresholds have no order, reached with a complete reading, ends the evaluation with a
fault of its own format exactly when the value does not evade the thresholds. No change is ever applied
to a policy with such a rule unless its value does. -/
theorem reported_iff_not_evades (listed : r ∈ p.rules) (apart : r.low.order r.high = .error cause) :
    (∀ (statistics : Snapshot) (roster : Roster) (before after : List Rule) (reading : Reading),
      p.rules = before ++ r :: after → (∀ b ∈ before, b.Evaluable statistics roster) →
      r.Reads statistics roster reading →
      ((∃ threshold why,
          r.Fails statistics roster (.format r.statistic reading.value threshold why) ∧
          evaluate p.rules statistics roster = .error (.format r.statistic reading.value threshold why)) ↔
        ¬ r.Evades reading.value)) ∧
    ∀ (e : Engine) (statistics : Snapshot) (roster : Roster) (now : Nat)
      (minimum maximum old new : Capacity) (direction : Direction),
      e.Applies statistics roster now p minimum maximum old new direction →
      ∃ reading, r.Reads statistics roster reading ∧ r.Evades reading.value := by
  constructor
  · intro statistics roster before after reading split passed reads
    rw [← Rule.compares_iff_evades apart]
    constructor
    · rintro ⟨threshold, why, fails, -⟩ compares
      exact fails.not_evaluable ⟨reading, reads, compares⟩
    · intro unordered
      obtain ⟨threshold, why, fails⟩ := reads.exists_fails unordered
      exact ⟨threshold, why, fails, evaluate_eq_error.mpr ⟨before, r, after, split, passed, fails⟩⟩
  · intro e statistics roster now minimum maximum old new direction applied
    obtain ⟨-, -, decided⟩ := applied.decided
    obtain ⟨-, -, -, found, evaluated, -⟩ := decide_eq_applied decided
    obtain ⟨reading, reads, compares⟩ := (evaluate_eq_ok.mp evaluated).1 r listed
    exact ⟨reading, reads, (Rule.compares_iff_evades apart).mp compares⟩

/-- One instance with a reading for the rule of a policy. -/
def reporting (v : StatValue) : Snapshot :=
  .ofList [(⟨"cpu", .avg, .ofMillis 300000, none, none⟩, ⟨v, .ofList ["vm"]⟩)]

/-- A value above the low threshold is held against the high one, which is no number. -/
theorem reported_iff_not_evades_above :
    let p := ruledBy (.integer 50) (.text "busy")
    let r : Rule := ⟨⟨"cpu", .avg, .ofMillis 300000, none, none⟩, .integer 50, .text "busy"⟩
    let roster := Roster.ofList [("vm", "east")]
    p.fault? = none ∧ r ∈ p.rules ∧ r.low.order r.high = .error (.notNumeric "busy") ∧
      ¬ r.Evades (.integer 60) ∧
      (∃ threshold why, evaluate p.rules (reporting (.integer 60)) roster =
        .error (.format r.statistic (.integer 60) threshold why)) ∧
      ∀ now target direction, ((Engine.new "web" .default).enforce p (reporting (.integer 60)) roster now).1 ≠
        .ok (.applied p.current target direction) := by
  intro p r roster
  have listed : r ∈ p.rules := List.mem_singleton.mpr rfl
  have apart : r.low.order r.high = .error (.notNumeric "busy") := by decide +kernel
  have kept : ¬ r.Evades (.integer 60) := by
    rintro (below | ⟨text, -⟩)
    · revert below
      decide +kernel
    · cases text
  have reported : (reporting (.integer 60)).get? r.statistic = some ⟨.integer 60, .ofList ["vm"]⟩ := by
    decide +kernel
  have reads : r.Reads (reporting (.integer 60)) roster ⟨.integer 60, .ofList ["vm"]⟩ := by
    have scope : roster.inScope r.statistic = ["vm"] := by decide +kernel
    refine ⟨reported, ⟨"vm", Rule.mem_inScope_iff.mp (by simp [scope])⟩, fun i needs => ?_⟩
    have only := Rule.mem_inScope_iff.mpr needs
    rw [scope, List.mem_singleton] at only
    subst only
    decide +kernel
  obtain ⟨reports, changes⟩ := reported_iff_not_evades listed apart
  refine ⟨by decide +kernel, listed, apart, kept, ?_, ?_⟩
  · obtain ⟨threshold, why, -, failed⟩ := (reports _ roster [] [] _ rfl (by simp) reads).mpr kept
    exact ⟨threshold, why, failed⟩
  · intro now target direction applied
    obtain ⟨reading, other, evades⟩ := changes _ _ _ _ _ _ _ _ _ (.alone applied)
    cases Option.some.inj (reported.symm.trans other.reported)
    exact kept evades

/-- A value below the low threshold is never held against the high one: the policy has no fault, its
thresholds have no order, and it shrinks. -/
theorem shrinks_without_order :
    let p := ruledBy (.integer 50) (.text "busy")
    p.fault? = none ∧ (StatValue.integer 50).order (.text "busy") = .error (.notNumeric "busy") ∧
      ((Engine.new "web" .default).enforce p (reporting (.integer 10)) (.ofList [("vm", "east")]) 0).1 =
        .ok (.applied p.current (.single "memory" 49) .down) := by
  decide +kernel

/-- Infinity is a text past `busy` and a number past 50. -/
example : ((Engine.new "web" .default).enforce (ruledBy (.integer 50) (.text "busy"))
    (reporting (.text "inf")) (.ofList [("vm", "east")]) 0).1 =
      .ok (.applied (.single "memory" 50) (.single "memory" 51) .up) := by
  decide +kernel

end Policy

end Autoscaler
