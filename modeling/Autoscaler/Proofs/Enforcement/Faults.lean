import Autoscaler.Proofs.Enforcement.Evaluation
import Mathlib.Data.List.Sort

/-!
# Faults of rules

Rules are evaluated in order, and the first that cannot be evaluated says why. An evaluation succeeds
when every rule has a complete reading that can be held against its thresholds, and it then sorts the
rules by where the values stand. Otherwise its fault is that of the first rule for which this is not so.
Statistics of no rule and instances that no rule needs play no part (`evaluate_exact`).
-/

namespace Autoscaler

variable {statistics statistics' : Snapshot} {roster roster' : Roster}

theorem Roster.ascending_inScope (roster : Roster) (s : StatisticId) :
    (roster.inScope s).Pairwise (· < ·) := by
  rw [inScope, List.pairwise_map]
  refine (Std.ExtTreeMap.ordered_keys_toList.imp fun earlier => ?_).filter _
  exact compareOfLessAndEq_eq_lt.mp earlier

namespace Rule

/-- A known instance that is meant to contribute: the one that is wanted, if one is, and in a zone that
is wanted, if some are. -/
def Needs (r : Rule) (roster : Roster) (i : String) : Prop :=
  ∃ zone, roster.zoneOf? i = some zone ∧
    (∀ wanted, r.statistic.instanceId = some wanted → wanted = i) ∧
    ∀ z, r.statistic.zone = some z → zone ∈ z

/-- The reading of the rule's statistic, when some instance is meant to contribute to it and all of
those have. -/
structure Reads (r : Rule) (statistics : Snapshot) (roster : Roster) (reading : Reading) : Prop where
  reported : statistics.get? r.statistic = some reading
  needed : ∃ i, r.Needs roster i
  complete : ∀ i, r.Needs roster i → i ∈ reading.contributors

/-- There is a complete reading, and it can be held against the thresholds. -/
def Evaluable (r : Rule) (statistics : Snapshot) (roster : Roster) : Prop :=
  ∃ reading, r.Reads statistics roster reading ∧ r.Compares reading.value

/-- What is wrong with a rule that cannot be evaluated. -/
inductive Fails (r : Rule) (statistics : Snapshot) (roster : Roster) : RuleFault → Prop where
  | noSample (unreported : statistics.get? r.statistic = none) :
      r.Fails statistics roster (.notYetAvailable r.statistic .noSample)
  | noInstances {reading : Reading} (reported : statistics.get? r.statistic = some reading)
      (none : ∀ i, ¬ r.Needs roster i) :
      r.Fails statistics roster (.notYetAvailable r.statistic .noInstances)
  | noBreakdown {reading : Reading} {missing : List String}
      (reported : statistics.get? r.statistic = some reading) (some : missing ≠ [])
      (all : ∀ i, i ∈ missing ↔ r.Needs roster i ∧ i ∉ reading.contributors)
      (ascending : missing.Pairwise (· < ·)) :
      r.Fails statistics roster (.notYetAvailable r.statistic (.noBreakdown missing))
  | low {reading : Reading} {cause : CompareError} (reads : r.Reads statistics roster reading)
      (apart : reading.value.order r.low = .error cause) :
      r.Fails statistics roster (.format r.statistic reading.value r.low cause)
  | high {reading : Reading} {o : Ordering} {cause : CompareError}
      (reads : r.Reads statistics roster reading) (low : reading.value.order r.low = .ok o)
      (notBelow : o ≠ .lt) (apart : reading.value.order r.high = .error cause) :
      r.Fails statistics roster (.format r.statistic reading.value r.high cause)

variable {r : Rule} {v : StatValue} {s : Standing} {i : String} {fault : RuleFault}

theorem mem_inScope_iff : i ∈ roster.inScope r.statistic ↔ r.Needs roster i := by
  simp only [Roster.mem_inScope, Roster.covers_iff, Needs]

theorem inScope_eq_nil_iff : roster.inScope r.statistic = [] ↔ ∀ i, ¬ r.Needs roster i := by
  simp only [List.eq_nil_iff_forall_not_mem, mem_inScope_iff]

theorem trusts_iff : r.Trusts statistics roster v ↔
    ∃ reading, r.Reads statistics roster reading ∧ reading.value = v := by
  simp only [Trusts, ne_eq, inScope_eq_nil_iff, mem_inScope_iff, not_forall, not_not]
  constructor
  · rintro ⟨reading, reported, needed, complete, value⟩
    exact ⟨reading, ⟨reported, needed, complete⟩, value⟩
  · rintro ⟨reading, ⟨reported, needed, complete⟩, value⟩
    exact ⟨reading, reported, needed, complete, value⟩

/-! ## One rule -/

/-- The instances that are meant to contribute to a reading and have not. -/
theorem mem_missing {reading : Reading} :
    i ∈ (roster.inScope r.statistic).filter (fun i => !reading.contributors.contains i) ↔
      r.Needs roster i ∧ i ∉ reading.contributors := by
  rw [List.mem_filter, mem_inScope_iff, Bool.not_eq_true', ← Bool.not_eq_true,
    Std.ExtTreeSet.contains_iff_mem]

theorem fails_of_trustedValue (untrusted : r.trustedValue statistics roster = .error fault) :
    r.Fails statistics roster fault := by
  unfold trustedValue at untrusted
  cases reported : statistics.get? r.statistic with
  | none =>
    simp only [reported] at untrusted
    cases untrusted
    exact .noSample reported
  | some reading =>
    simp only [reported] at untrusted
    split at untrusted
    · rename_i none
      cases untrusted
      exact .noInstances reported (inScope_eq_nil_iff.mp none)
    · split at untrusted
      · rename_i some
        cases untrusted
        exact .noBreakdown reported some (fun _ => mem_missing)
          ((roster.ascending_inScope r.statistic).filter _)
      · cases untrusted

theorem trustedValue_of_missing {reading : Reading} {missing : List String}
    (reported : statistics.get? r.statistic = some reading) (some : missing ≠ [])
    (all : ∀ i, i ∈ missing ↔ r.Needs roster i ∧ i ∉ reading.contributors)
    (ascending : missing.Pairwise (· < ·)) : r.trustedValue statistics roster =
      .error (.notYetAvailable r.statistic (.noBreakdown missing)) := by
  -- Both lists ascend, so that they are the same when they have the same members.
  have same : (roster.inScope r.statistic).filter (fun i => !reading.contributors.contains i) = missing :=
    ((roster.ascending_inScope r.statistic).filter _).eq_of_mem_iff ascending
      fun i => mem_missing.trans (all i).symm
  have needed : roster.inScope r.statistic ≠ [] := by
    intro none
    rw [none] at same
    exact some same.symm
  simp only [trustedValue, reported, same, if_neg needed, ne_eq, some, not_false_eq_true, if_true]

theorem standing_eq_error : r.standing v = .error fault ↔
    (∃ cause, v.order r.low = .error cause ∧ fault = .format r.statistic v r.low cause) ∨
      ∃ o cause, v.order r.low = .ok o ∧ o ≠ .lt ∧ v.order r.high = .error cause ∧
        fault = .format r.statistic v r.high cause := by
  unfold standing orderAgainst
  cases v.order r.low with
  | error cause => simp [bind, Except.bind, eq_comm]
  | ok o =>
    by_cases less : o = .lt
    · simp [less, bind, Except.bind, pure, Except.pure]
    · cases v.order r.high with
      | error cause => simp [less, bind, Except.bind, eq_comm]
      | ok o' => by_cases more : o' = .gt <;> simp [less, more, bind, Except.bind, pure, Except.pure]

/-- A rule cannot be assessed exactly when something is wrong with it. -/
theorem assess_eq_error : r.assess statistics roster = .error fault ↔ r.Fails statistics roster fault := by
  constructor
  · intro failed
    rcases bind_eq_error.mp failed with untrusted | ⟨v, trusted, unplaced⟩
    · exact fails_of_trustedValue untrusted
    · obtain ⟨reading, reads, rfl⟩ := trusts_iff.mp (trustedValue_eq_ok.mp trusted)
      rcases bind_eq_error.mp unplaced with unplaced | ⟨s, -, done⟩
      · rcases standing_eq_error.mp unplaced with ⟨cause, apart, rfl⟩ | ⟨o, cause, low, notBelow, apart, rfl⟩
        · exact .low reads apart
        · exact .high reads low notBelow apart
      · cases done
  · intro fails
    -- A reading that is complete is trusted, and then it is the comparison that fails.
    have unplaced {reading : Reading} (reads : r.Reads statistics roster reading)
        (apart : r.standing reading.value = .error fault) : r.assess statistics roster = .error fault :=
      bind_eq_error.mpr (.inr ⟨reading.value, trustedValue_eq_ok.mpr (trusts_iff.mpr ⟨reading, reads, rfl⟩),
        bind_eq_error.mpr (.inl apart)⟩)
    cases fails with
    | noSample unreported =>
      exact bind_eq_error.mpr (.inl (by simp only [trustedValue, unreported]))
    | noInstances reported none =>
      have empty := inScope_eq_nil_iff.mpr none
      exact bind_eq_error.mpr (.inl (by simp only [trustedValue, reported, if_pos empty]))
    | noBreakdown reported some all ascending =>
      exact bind_eq_error.mpr (.inl (trustedValue_of_missing reported some all ascending))
    | low reads apart => exact unplaced reads (standing_eq_error.mpr (.inl ⟨_, apart, rfl⟩))
    | high reads low notBelow apart =>
      exact unplaced reads (standing_eq_error.mpr (.inr ⟨_, _, low, notBelow, apart, rfl⟩))

theorem evaluable_iff : r.Evaluable statistics roster ↔
    ∃ v, r.Trusts statistics roster v ∧ r.Compares v := by
  simp only [Evaluable, trusts_iff]
  constructor
  · rintro ⟨reading, reads, compares⟩
    exact ⟨_, ⟨reading, reads, rfl⟩, compares⟩
  · rintro ⟨_, ⟨reading, reads, rfl⟩, compares⟩
    exact ⟨reading, reads, compares⟩

theorem evaluable_iff_assess :
    r.Evaluable statistics roster ↔ ∃ a, r.assess statistics roster = .ok a :=
  evaluable_iff.trans exists_assess.symm

theorem Fails.not_evaluable (fails : r.Fails statistics roster fault) : ¬ r.Evaluable statistics roster := by
  intro evaluable
  obtain ⟨a, assessed⟩ := evaluable_iff_assess.mp evaluable
  cases assessed.symm.trans (assess_eq_error.mpr fails)

/-- A complete reading that cannot be held against the thresholds is a fault of format. -/
theorem Reads.exists_fails {reading : Reading} (reads : r.Reads statistics roster reading)
    (apart : ¬ r.Compares reading.value) :
    ∃ threshold cause, r.Fails statistics roster (.format r.statistic reading.value threshold cause) := by
  cases low : reading.value.order r.low with
  | error cause => exact ⟨_, cause, .low reads low⟩
  | ok o =>
    by_cases less : o = .lt
    · exact absurd ⟨o, low, fun notLess => absurd less notLess⟩ apart
    · cases high : reading.value.order r.high with
      | error cause => exact ⟨_, cause, .high reads low less high⟩
      | ok o' => exact absurd ⟨o, low, fun _ => ⟨o', high⟩⟩ apart

instance : Decidable (r.Places v s) := decidable_of_iff _ standing_eq_ok

/-- The rule with the value that was read, when this value stands there. -/
def breach? (r : Rule) (statistics : Snapshot) (s : Standing) : Option Breach :=
  (statistics.get? r.statistic).bind fun reading =>
    if r.Places reading.value s then some ⟨r, reading.value⟩ else none

theorem breach?_of_assess {b : Breach} {found : Standing}
    (assessed : r.assess statistics roster = .ok (b, found)) :
    r.breach? statistics s = if found = s then some b else none := by
  obtain ⟨v, trusts, rfl, places⟩ := assess_eq_ok.mp assessed
  obtain ⟨reading, reads, rfl⟩ := trusts_iff.mp trusts
  have there : r.Places reading.value s ↔ found = s := by
    rw [← standing_eq_ok, standing_eq_ok.mpr places, Except.ok.injEq]
  simp only [breach?, reads.reported, Option.bind_some, there]

/-! ## What is read -/

section
variable (same : statistics'.get? r.statistic = statistics.get? r.statistic)
  (alike : ∀ i, r.Needs roster' i ↔ r.Needs roster i)
include same alike

theorem Reads.congr {reading : Reading} (reads : r.Reads statistics roster reading) :
    r.Reads statistics' roster' reading where
  reported := same.trans reads.reported
  needed := (exists_congr alike).mpr reads.needed
  complete i needs := reads.complete i ((alike i).mp needs)

theorem Evaluable.congr (evaluable : r.Evaluable statistics roster) : r.Evaluable statistics' roster' := by
  obtain ⟨reading, reads, compares⟩ := evaluable
  exact ⟨reading, reads.congr same alike, compares⟩

theorem Fails.congr (fails : r.Fails statistics roster fault) : r.Fails statistics' roster' fault := by
  cases fails with
  | noSample unreported => exact .noSample (same.trans unreported)
  | noInstances reported none =>
    exact .noInstances (same.trans reported) fun i needs => none i ((alike i).mp needs)
  | noBreakdown reported some all ascending =>
    exact .noBreakdown (same.trans reported) some
      (fun i => (all i).trans (and_congr_left' (alike i).symm)) ascending
  | low reads apart => exact .low (reads.congr same alike) apart
  | high reads low notBelow apart => exact .high (reads.congr same alike) low notBelow apart

end

end Rule

/-! ## Rules in order -/

variable {rules : List Rule} {e : Evaluation} {fault : RuleFault}

theorem select_eq_filterMap {assessed : List (Breach × Standing)}
    (all : List.Forall₂ (fun r a => r.assess statistics roster = .ok a) rules assessed) (s : Standing) :
    Evaluation.select s assessed = rules.filterMap (·.breach? statistics s) := by
  induction all with
  | nil => rfl
  | @cons r a _ _ first _ ih =>
    rw [List.filterMap_cons, Rule.breach?_of_assess first, ← ih]
    by_cases there : a.2 = s <;> simp [Evaluation.select, there]

theorem evaluate_eq_ok : evaluate rules statistics roster = .ok e ↔
    (∀ r ∈ rules, r.Evaluable statistics roster) ∧
      e = ⟨rules.filterMap (·.breach? statistics .below), rules.filterMap (·.breach? statistics .above)⟩ := by
  simp only [Rule.evaluable_iff_assess]
  constructor
  · intro evaluated
    obtain ⟨assessed, all, rfl⟩ := exists_assessed evaluated
    refine ⟨exists_forall₂.mp ⟨assessed, all⟩, ?_⟩
    rw [Evaluation.ofAssessed, select_eq_filterMap all, select_eq_filterMap all]
  · rintro ⟨each, rfl⟩
    obtain ⟨assessed, all⟩ := exists_forall₂.mpr each
    refine bind_eq_ok.mpr ⟨assessed, mapM_eq_ok.mpr all, ?_⟩
    rw [Evaluation.ofAssessed, select_eq_filterMap all, select_eq_filterMap all]
    rfl

theorem evaluate_eq_error : evaluate rules statistics roster = .error fault ↔
    ∃ before r after, rules = before ++ r :: after ∧ (∀ b ∈ before, b.Evaluable statistics roster) ∧
      r.Fails statistics roster fault := by
  simp only [Rule.evaluable_iff_assess, ← Rule.assess_eq_error, ← mapM_eq_error]
  constructor
  · intro failed
    rcases bind_eq_error.mp failed with failed | ⟨assessed, -, done⟩
    · exact failed
    · cases done
  · intro failed
    exact bind_eq_error.mpr (.inl failed)

theorem evaluate_congr
    (same : ∀ r ∈ rules, statistics'.get? r.statistic = statistics.get? r.statistic)
    (alike : ∀ r ∈ rules, ∀ i, r.Needs roster' i ↔ r.Needs roster i) :
    evaluate rules statistics' roster' = evaluate rules statistics roster := by
  cases evaluated : evaluate rules statistics roster with
  | ok e =>
    obtain ⟨each, rfl⟩ := evaluate_eq_ok.mp evaluated
    refine evaluate_eq_ok.mpr ⟨fun r mem => (each r mem).congr (same r mem) (alike r mem), ?_⟩
    have breaches (s : Standing) : rules.filterMap (·.breach? statistics' s) =
        rules.filterMap (·.breach? statistics s) := by
      refine List.filterMap_congr fun r mem => ?_
      rw [Rule.breach?, same r mem, Rule.breach?]
    rw [breaches, breaches]
  | error fault =>
    obtain ⟨before, r, after, rfl, passed, fails⟩ := evaluate_eq_error.mp evaluated
    refine evaluate_eq_error.mpr ⟨before, r, after, rfl, fun b mem => ?_, ?_⟩
    · have listed : b ∈ before ++ r :: after := List.mem_append_left _ mem
      exact (passed b mem).congr (same b listed) (alike b listed)
    · have listed : r ∈ before ++ r :: after := List.mem_append_right _ List.mem_cons_self
      exact fails.congr (same r listed) (alike r listed)

/-- An evaluation succeeds exactly when every rule can be evaluated, and then finds the rules past each
of their thresholds, in order and with the values that were read. It fails exactly with the fault of
the first rule that cannot be evaluated. Of all that is known it looks at the readings of the rules'
statistics and at the instances that the rules need, and at nothing else. -/
theorem evaluate_exact (rules : List Rule) (statistics : Snapshot) (roster : Roster) :
    (∀ e, evaluate rules statistics roster = .ok e ↔
      (∀ r ∈ rules, r.Evaluable statistics roster) ∧
        e.belowLow = rules.filterMap (·.breach? statistics .below) ∧
        e.aboveHigh = rules.filterMap (·.breach? statistics .above)) ∧
    (∀ fault, evaluate rules statistics roster = .error fault ↔
      ∃ before r after, rules = before ++ r :: after ∧
        (∀ b ∈ before, b.Evaluable statistics roster) ∧ r.Fails statistics roster fault) ∧
    ∀ (statistics' : Snapshot) (roster' : Roster),
      (∀ r ∈ rules, statistics'.get? r.statistic = statistics.get? r.statistic) →
      (∀ r ∈ rules, ∀ i, r.Needs roster' i ↔ r.Needs roster i) →
      evaluate rules statistics' roster' = evaluate rules statistics roster := by
  refine ⟨fun e => ?_, fun fault => evaluate_eq_error, fun _ _ => evaluate_congr⟩
  rw [evaluate_eq_ok]
  exact and_congr_right fun _ => by cases e; simp

/-- A rule on one zone. Neither an instance in another zone nor a reading for all zones, to which nobody
has contributed, makes a difference to it. Beside it, a rule on all zones fails. -/
theorem evaluate_exact_east :
    let all : Rule := ⟨⟨"cpu", .avg, .ofMillis 300000, none, none⟩, .integer 20, .integer 80⟩
    let zone : ZoneSet := .ofPieces ["east"] (by decide) (by decide)
    let east : Rule := { all with statistic := { all.statistic with zone } }
    let statistics := Snapshot.ofList [(east.statistic, ⟨.integer 95, .ofList ["vm"]⟩)]
    let more := statistics.insert all.statistic ⟨.integer 50, ∅⟩
    let roster := Roster.ofList [("vm", "east")]
    let larger := Roster.ofList [("vm", "east"), ("far", "west")]
    (∀ r ∈ [east], more.get? r.statistic = statistics.get? r.statistic) ∧
      (∀ r ∈ [east], ∀ i, r.Needs larger i ↔ r.Needs roster i) ∧
      evaluate [east] more larger = .ok ⟨[], [⟨east, .integer 95⟩]⟩ ∧
      evaluate [east, all] more larger =
        .error (.notYetAvailable all.statistic (.noBreakdown ["far", "vm"])) := by
  intro all zone east statistics more roster larger
  have same : ∀ r ∈ [east], more.get? r.statistic = statistics.get? r.statistic :=
    List.forall_mem_singleton.mpr (by decide +kernel)
  have alike : ∀ r ∈ [east], ∀ i, r.Needs larger i ↔ r.Needs roster i := by
    refine List.forall_mem_singleton.mpr fun i => ?_
    have scopes : larger.inScope east.statistic = roster.inScope east.statistic := by decide +kernel
    rw [← Rule.mem_inScope_iff, scopes, Rule.mem_inScope_iff]
  refine ⟨same, alike, ?_, ?_⟩
  · rw [(evaluate_exact [east] statistics roster).2.2 more larger same alike]
    decide +kernel
  · refine ((evaluate_exact [east, all] more larger).2.1 _).mpr ⟨[east], all, [], rfl, ?_, ?_⟩
    · refine List.forall_mem_singleton.mpr (Rule.evaluable_iff_assess.mpr ⟨(⟨east, .integer 95⟩, .above), ?_⟩)
      decide +kernel
    · exact Rule.assess_eq_error.mp (by decide +kernel)

end Autoscaler
