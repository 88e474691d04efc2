import Autoscaler.Proofs.Enforcement.Direction

/-!
# What rules say

What it takes for the value of a rule to be trusted and to be held against the thresholds, and where it
then stands. Rules are evaluated together exactly when each of them can be (`exists_evaluation`), and
something is found past a threshold exactly when some rule says so (`select_ne_nil`).
-/

namespace Autoscaler

variable {statistics : Snapshot} {roster : Roster}

namespace Rule

/-- A value that was reported when some instance is in scope, and every such instance has contributed
to it. -/
def Trusts (r : Rule) (statistics : Snapshot) (roster : Roster) (v : StatValue) : Prop :=
  ∃ reading, statistics.get? r.statistic = some reading ∧ roster.inScope r.statistic ≠ [] ∧
    (∀ i ∈ roster.inScope r.statistic, i ∈ reading.contributors) ∧ reading.value = v

/-- The value has an order with the low threshold and, unless it is below it, with the high one. -/
def Compares (r : Rule) (v : StatValue) : Prop :=
  ∃ o, v.order r.low = .ok o ∧ (o ≠ .lt → ∃ o', v.order r.high = .ok o')

/-- Where the value stands. One below the low threshold is not above the high one, whatever its order
with it. -/
def Places (r : Rule) (v : StatValue) : Standing → Prop
  | .below => v.order r.low = .ok .lt
  | .within => (∃ o, v.order r.low = .ok o ∧ o ≠ .lt) ∧ ∃ o, v.order r.high = .ok o ∧ o ≠ .gt
  | .above => (∃ o, v.order r.low = .ok o ∧ o ≠ .lt) ∧ v.order r.high = .ok .gt

variable {r : Rule} {v : StatValue} {s : Standing}

theorem trustedValue_eq_ok :
    r.trustedValue statistics roster = .ok v ↔ r.Trusts statistics roster v := by
  unfold trustedValue Trusts
  cases reported : statistics.get? r.statistic with
  | none => simp
  | some reading =>
    have complete : ((roster.inScope r.statistic).filter fun i => !reading.contributors.contains i) = [] ↔
        ∀ i ∈ roster.inScope r.statistic, i ∈ reading.contributors := by
      simp [List.filter_eq_nil_iff]
    by_cases covered : roster.inScope r.statistic = []
    · simp [covered]
    · simp only [if_neg covered]
      by_cases all : ∀ i ∈ roster.inScope r.statistic, i ∈ reading.contributors
      · simp only [complete.mpr all, ne_eq, not_true_eq_false, if_false, Except.ok.injEq]
        exact ⟨fun value => ⟨reading, rfl, covered, all, value⟩,
          fun ⟨_, found, _, _, value⟩ => Option.some.inj found ▸ value⟩
      · simp only [ne_eq, complete.not.mpr all, not_false_eq_true, if_true, reduceCtorEq, false_iff]
        exact fun ⟨_, found, _, trusted, _⟩ => all (Option.some.inj found ▸ trusted)

theorem standing_eq_ok : r.standing v = .ok s ↔ r.Places v s := by
  unfold standing orderAgainst Places
  cases v.order r.low with
  | error cause => cases s <;> simp [bind, Except.bind]
  | ok o =>
    by_cases less : o = .lt
    · cases s <;> simp [less, bind, Except.bind, pure, Except.pure]
    · cases v.order r.high with
      | error cause => cases s <;> simp [less, bind, Except.bind]
      | ok o' =>
        by_cases more : o' = .gt
        · cases s <;> simp [less, more, bind, Except.bind, pure, Except.pure]
        · cases s <;> simp [less, more, bind, Except.bind, pure, Except.pure]

theorem exists_places : (∃ s, r.Places v s) ↔ r.Compares v := by
  constructor
  · rintro ⟨s, places⟩
    cases s with
    | below => exact ⟨_, places, fun notLess => absurd rfl notLess⟩
    | within =>
      obtain ⟨⟨o, low, -⟩, o', high, -⟩ := places
      exact ⟨o, low, fun _ => ⟨o', high⟩⟩
    | above =>
      obtain ⟨⟨o, low, -⟩, high⟩ := places
      exact ⟨o, low, fun _ => ⟨_, high⟩⟩
  · rintro ⟨o, low, further⟩
    by_cases less : o = .lt
    · exact ⟨.below, by rw [Places, low, less]⟩
    · obtain ⟨o', high⟩ := further less
      by_cases more : o' = .gt
      · exact ⟨.above, ⟨o, low, less⟩, by rw [high, more]⟩
      · exact ⟨.within, ⟨o, low, less⟩, o', high, more⟩

theorem assess_eq_ok {b : Breach} : r.assess statistics roster = .ok (b, s) ↔
    ∃ v, r.Trusts statistics roster v ∧ b = ⟨r, v⟩ ∧ r.Places v s := by
  simp only [assess, bind_eq_ok, trustedValue_eq_ok, standing_eq_ok, pure, Except.pure,
    Except.ok.injEq, Prod.mk.injEq]
  constructor
  · rintro ⟨v, trusts, s, places, rfl, rfl⟩
    exact ⟨v, trusts, rfl, places⟩
  · rintro ⟨v, trusts, rfl, places⟩
    exact ⟨v, trusts, s, places, rfl, rfl⟩

/-- A rule can be assessed when it has a trusted value that compares with its thresholds. -/
theorem exists_assess : (∃ a, r.assess statistics roster = .ok a) ↔
    ∃ v, r.Trusts statistics roster v ∧ r.Compares v := by
  simp only [← exists_places, Prod.exists, assess_eq_ok]
  constructor
  · rintro ⟨b, s, v, trusts, -, places⟩
    exact ⟨v, trusts, s, places⟩
  · rintro ⟨v, trusts, s, places⟩
    exact ⟨_, s, v, trusts, rfl, places⟩

/-- A rule stands somewhere exactly when it has a trusted value there. -/
theorem stands_iff : r.Stands statistics roster s ↔
    ∃ v, r.Trusts statistics roster v ∧ r.Places v s := by
  simp only [Stands, assess_eq_ok]
  constructor
  · rintro ⟨b, v, trusts, -, places⟩
    exact ⟨v, trusts, places⟩
  · rintro ⟨v, trusts, places⟩
    exact ⟨_, v, trusts, rfl, places⟩

end Rule

/-! ## Rules together -/

variable {rules : List Rule} {e : Evaluation} {s : Standing}

/-- Rules can be evaluated when each of them has a trusted value that compares with its thresholds. -/
theorem exists_evaluation : (∃ e, evaluate rules statistics roster = .ok e) ↔
    ∀ r ∈ rules, ∃ v, r.Trusts statistics roster v ∧ r.Compares v := by
  simp only [← Rule.exists_assess]
  rw [← exists_forall₂]
  constructor
  · rintro ⟨e, evaluated⟩
    obtain ⟨assessed, all, -⟩ := exists_assessed evaluated
    exact ⟨assessed, all⟩
  · rintro ⟨assessed, all⟩
    exact ⟨_, bind_eq_ok.mpr ⟨assessed, mapM_eq_ok.mpr all, rfl⟩⟩

theorem select_ne_nil {assessed : List (Breach × Standing)}
    (all : List.Forall₂ (fun r a => r.assess statistics roster = .ok a) rules assessed) :
    Evaluation.select s assessed ≠ [] ↔ ∃ r ∈ rules, r.Stands statistics roster s := by
  constructor
  · intro some
    by_contra none
    exact some (select_eq_nil all fun r mem stands => none ⟨r, mem, stands⟩)
  · rintro ⟨r, mem, b, stands⟩
    obtain ⟨a, listed, same⟩ := exists_mem_of_forall₂ all.flip mem
    have assessed_eq : a = (b, s) := Except.ok.inj (same.symm.trans stands)
    exact List.ne_nil_of_mem (Evaluation.mem_select.mpr (assessed_eq ▸ listed))

end Autoscaler
