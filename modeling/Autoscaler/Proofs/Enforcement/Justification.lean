import Autoscaler.Proofs.Enforcement.Evaluation
import Autoscaler.Proofs.Enforcement.Steps
import Autoscaler.Proofs.Enforcement.Undivided

/-!
# Justified changes

A change is applied exactly when all that may stand in its way does not: `Policy.Justifies` names every
condition. Rules that ask for both directions never change anything. What an engine has recorded for a
zone set is the target of the last change that it applied to it (`applied_iff_justifies`).
-/

namespace Autoscaler

variable {statistics : Snapshot} {roster : Roster}

/-- Where a value stands that asks for a step in a direction. -/
def Direction.standing : Direction → Standing
  | .up => .above
  | .down => .below

namespace Policy

variable {p : Policy} {minimum maximum old new : Capacity} {direction : Direction}

/-- Some rule of the policy has a trusted value that stands there. -/
def Sees (p : Policy) (statistics : Snapshot) (roster : Roster) (s : Standing) : Prop :=
  ∃ r ∈ p.rules, ∃ v, r.Trusts statistics roster v ∧ r.Places v s

/-- Everything that it takes to change a capacity in a direction. -/
structure Justifies (p : Policy) (status : Cooldown.Status) (minimum maximum : Capacity)
    (statistics : Snapshot) (roster : Roster) (direction : Direction) : Prop where
  sound : p.fault? = none
  ready : status = .ready
  fits : minimum ≤ maximum
  /-- Every rule has a trusted value that can be held against its thresholds. -/
  known : ∀ r ∈ p.rules, ∃ v, r.Trusts statistics roster v ∧ r.Compares v
  asked : p.Sees statistics roster direction.standing
  unopposed : ¬ p.Sees statistics roster direction.opposite.standing
  /-- The step leads somewhere. -/
  moves : p.stepped minimum maximum direction ≠ p.current

theorem asking_ne_nil {e : Evaluation} (evaluated : evaluate p.rules statistics roster = .ok e)
    (direction : Direction) :
    e.asking direction ≠ [] ↔ p.Sees statistics roster direction.standing := by
  obtain ⟨assessed, all, rfl⟩ := exists_assessed evaluated
  simp only [Sees, ← Rule.stands_iff]
  cases direction with
  | up => exact select_ne_nil all
  | down => exact select_ne_nil all

theorem decide_eq_applied_iff :
    p.decide minimum maximum statistics roster = .ok (.applied old new direction) ↔
      (∃ e, evaluate p.rules statistics roster = .ok e ∧ e.asking direction ≠ [] ∧
        e.asking direction.opposite = []) ∧
      old = p.current ∧ new = p.stepped minimum maximum direction ∧ new ≠ old := by
  constructor
  · intro applied
    obtain ⟨same, moved, stepped, asked⟩ := decide_eq_applied applied
    exact ⟨asked, same, stepped, moved⟩
  · rintro ⟨⟨e, evaluated, asked, unopposed⟩, rfl, rfl, moved⟩
    rw [decide_of_asking evaluated asked unopposed, advance, if_neg moved]

/-- Rules that ask for both directions are in conflict, unless some rule cannot be evaluated. -/
theorem decide_of_sees_both (below : p.Sees statistics roster .below)
    (above : p.Sees statistics roster .above) :
    ∃ refusal, p.decide minimum maximum statistics roster = .error refusal := by
  cases evaluated : evaluate p.rules statistics roster with
  | error fault => exact ⟨_, decide_of_unevaluated evaluated⟩
  | ok e =>
    have low : e.belowLow ≠ [] := (asking_ne_nil evaluated .down).mpr below
    have high : e.aboveHigh ≠ [] := (asking_ne_nil evaluated .up).mpr above
    exact ⟨_, decide_of_conflict evaluated low high⟩

end Policy

namespace Cycle

variable {c : Cycle} {status : Cooldown.Status} {planned : Allocation} {z : ZoneSet} {p : Policy}
  {old new : Capacity} {direction : Direction}

theorem verdict_eq_applied_iff :
    c.verdict status statistics roster planned z p = .ok (.applied old new direction) ↔
      p.Justifies status (c.minimumFor planned z p) (c.maximumFor planned z p) statistics roster
        direction ∧
      old = p.current ∧
      new = p.stepped (c.minimumFor planned z p) (c.maximumFor planned z p) direction := by
  constructor
  · intro applied
    obtain ⟨sound, fits, decided⟩ := decide_of_verdict_eq_applied applied
    obtain ⟨⟨e, evaluated, asked, unopposed⟩, rfl, rfl, moves⟩ := Policy.decide_eq_applied_iff.mp decided
    -- An active cooldown would have refused the change, whatever the rules say.
    have ready : status = .ready := by
      by_contra waiting
      obtain ⟨refusal, refused⟩ := exists_refusal waiting statistics roster planned z p
      cases applied.symm.trans refused
    refine ⟨⟨sound, ready, fits, exists_evaluation.mp ⟨e, evaluated⟩, ?_, ?_, moves⟩, rfl, rfl⟩
    · exact (Policy.asking_ne_nil evaluated direction).mp asked
    · exact fun opposed => (Policy.asking_ne_nil evaluated direction.opposite).mpr opposed unopposed
  · rintro ⟨justified, rfl, rfl⟩
    obtain ⟨e, evaluated⟩ := exists_evaluation.mpr justified.known
    rw [verdict_eq_decide statistics roster justified.sound justified.ready justified.fits]
    refine Policy.decide_eq_applied_iff.mpr ⟨⟨e, evaluated, ?_, ?_⟩, rfl, rfl, justified.moves⟩
    · exact (Policy.asking_ne_nil evaluated direction).mpr justified.asked
    · by_contra opposed
      exact justified.unopposed ((Policy.asking_ne_nil evaluated direction.opposite).mp opposed)

theorem verdict_of_sees_both (below : p.Sees statistics roster .below)
    (above : p.Sees statistics roster .above) :
    ∃ refusal, c.verdict status statistics roster planned z p = .error refusal := by
  rcases c.refused_or_decided status statistics roster planned z p with refused | ⟨-, -, -, decided⟩
  · exact refused
  · rw [decided]
    exact Policy.decide_of_sees_both below above

end Cycle

/-! ## Targets that are recorded -/

/-- The targets of the changes that were applied to a zone set, in the order of the verdicts. -/
def targets (z : ZoneSet) (verdicts : List (ZoneSet × Verdict)) : List Capacity :=
  verdicts.filterMap fun entry => if entry.1 = z then entry.2.change? else none

theorem targets_cons (z : ZoneSet) (entry : ZoneSet × Verdict) (rest : List (ZoneSet × Verdict)) :
    targets z (entry :: rest) =
      (if entry.1 = z then entry.2.change? else none).toList ++ targets z rest := by
  rw [targets, List.filterMap_cons]
  cases (if entry.1 = z then entry.2.change? else none) <;> rfl

theorem targets_eq_nil {z : ZoneSet} {verdicts : List (ZoneSet × Verdict)}
    (unchanged : ∀ v, (z, v) ∈ verdicts → v.change? = none) : targets z verdicts = [] := by
  rw [targets, List.filterMap_eq_nil_iff]
  rintro ⟨o, v⟩ listed
  by_cases same : o = z
  · subst same
    rw [if_pos rfl]
    exact unchanged v listed
  · exact if_neg same

namespace Engine

/-- Records the targets of all verdicts in turn. -/
def recordAll (latest : Allocation) (verdicts : List (ZoneSet × Verdict)) : Allocation :=
  verdicts.foldl (fun latest entry => record latest entry.1 entry.2) latest

theorem get?_record (latest : Allocation) (o z : ZoneSet) (v : Verdict) :
    (record latest o v).get? z = (if o = z then v.change? else none).or (latest.get? z) := by
  rw [record]
  cases v.change? with
  | none => simp
  | some target =>
    rw [Allocation.get?_set]
    split <;> rfl

/-- The target that was recorded last stands. -/
theorem get?_recordAll (verdicts : List (ZoneSet × Verdict)) (latest : Allocation) (z : ZoneSet) :
    (recordAll latest verdicts).get? z = (targets z verdicts).getLast?.or (latest.get? z) := by
  induction verdicts generalizing latest with
  | nil => rfl
  | cons entry rest ih =>
    show (recordAll (record latest entry.1 entry.2) rest).get? z = _
    rw [ih, get?_record, ← Option.or_assoc, targets_cons, List.getLast?_append]
    cases (if entry.1 = z then entry.2.change? else none) <;> rfl

theorem latest_eq_recordAll (e : Engine) (c : Cycle) (statistics : Snapshot) (roster : Roster)
    (now : Nat) : (e.enforceCycle c statistics roster now).2.latest =
      recordAll e.latest (e.enforceCycle c statistics roster now).1 := by
  rw [enforceCycle, recordAll, List.foldl_map]

theorem latest_meet (e : Engine) (x : Demand) :
    (e.meet x).2.latest = recordAll e.latest (e.meet x).1.verdicts := by
  cases aim : x.aim with
  | policy p => simp only [meet, aim]; rfl
  | cycle c => simp only [meet, aim, Answer.verdicts, latest_eq_recordAll]

theorem latest_meetAll (demands : List Demand) (e : Engine) :
    (e.meetAll demands).2.latest =
      recordAll e.latest ((e.meetAll demands).1.flatMap Answer.verdicts) := by
  induction demands generalizing e with
  | nil => rfl
  | cons x rest ih =>
    show ((e.meet x).2.meetAll rest).2.latest = recordAll e.latest ((e.meet x).1.verdicts ++
      ((e.meet x).2.meetAll rest).1.flatMap Answer.verdicts)
    rw [ih, latest_meet, recordAll, recordAll, recordAll, List.foldl_append]

/-- Where rules ask for both directions, a cycle leaves everything as it was. -/
theorem enforceCycle_of_sees_both {e : Engine} {c : Cycle} {now : Nat} {before : List (ZoneSet × Policy)}
    {z : ZoneSet} {p : Policy} (turn : c.Turn before z p) (below : p.Sees statistics roster .below)
    (above : p.Sees statistics roster .above) :
    (∃ refusal, ∀ v, (z, v) ∈ (e.enforceCycle c statistics roster now).1 ↔ v = .error refusal) ∧
      (e.enforceCycle c statistics roster now).2.latest.get? z = e.latest.get? z ∧
      (e.enforceCycle c statistics roster now).2.planned.get? z = some p.current := by
  obtain ⟨refusal, refused⟩ : ∃ refusal, c.verdict (e.statusAt roster now) statistics roster
      (c.plans (e.statusAt roster now) statistics roster before) z p = .error refusal :=
    Cycle.verdict_of_sees_both below above
  have only (v : Verdict) :
      (z, v) ∈ (e.enforceCycle c statistics roster now).1 ↔ v = .error refusal := by
    rw [mem_enforceCycle_of_turn turn, refused]
  refine ⟨⟨refusal, only⟩, ?_, ?_⟩
  · have unchanged : targets z (e.enforceCycle c statistics roster now).1 = [] :=
      targets_eq_nil fun v listed => by rw [(only v).mp listed]; rfl
    rw [latest_eq_recordAll, get?_recordAll, unchanged]
    rfl
  · rw [planned_enforceCycle, turn.get?_plans_toList, refused]
    rfl

/-- A cycle applies a change to a zone set exactly when the policy justifies it between the bounds of
its turn, and none where rules ask for both directions. The latest target of a zone set is that of the
last change that was applied to it, in cycles or on its own. -/
theorem applied_iff_justifies (e : Engine) :
    (∀ (c : Cycle) (statistics : Snapshot) (roster : Roster) (now : Nat) (z : ZoneSet) (p : Policy),
      c.policies[z]? = some p →
      let verdicts := (e.enforceCycle c statistics roster now).1
      let after := (e.enforceCycle c statistics roster now).2
      let status := e.statusAt roster now
      ∃ before, c.Turn before z p ∧
        let planned := c.plans status statistics roster before
        let minimum := c.minimumFor planned z p
        let maximum := c.maximumFor planned z p
        (∀ old new direction, (z, .ok (.applied old new direction)) ∈ verdicts ↔
          p.Justifies status minimum maximum statistics roster direction ∧
            old = p.current ∧ new = p.stepped minimum maximum direction) ∧
        (p.Sees statistics roster .below → p.Sees statistics roster .above →
          (∃ refusal, ∀ v, (z, v) ∈ verdicts ↔ v = .error refusal) ∧
            after.latest.get? z = e.latest.get? z ∧ after.planned.get? z = some p.current)) ∧
    (∀ (demands : List Demand) (z : ZoneSet), (e.meetAll demands).2.latest.get? z =
      (targets z ((e.meetAll demands).1.flatMap Answer.verdicts)).getLast?.or (e.latest.get? z)) ∧
    ∀ (workload : String) (windows : Cooldown.Windows) (z : ZoneSet),
      (new workload windows).latest.get? z = none := by
  refine ⟨?_, ?_, ?_⟩
  · intro c statistics roster now z p found
    obtain ⟨before, turn⟩ := Cycle.exists_turn found
    refine ⟨before, turn, ?_, enforceCycle_of_sees_both turn⟩
    intro old new direction
    rw [mem_enforceCycle_of_turn turn, eq_comm]
    exact Cycle.verdict_eq_applied_iff
  · intro demands z
    rw [latest_meetAll, get?_recordAll]
  · intro workload windows z
    exact Allocation.get?_empty z

/-- A policy for 10 to 100 of memory. What its second rule takes for little, its first takes for much. -/
def torn : Policy := { tenToHundred 51 with
  rules := [⟨⟨"cpu", .avg, .ofMillis 300000, none, none⟩, .integer 20, .integer 80⟩,
    ⟨⟨"cpu", .avg, .ofMillis 300000, none, none⟩, .integer 96, .integer 99⟩] }

/-- One busy instance justifies a step. The rules that then ask for both directions change nothing, and
the step stays the latest. -/
theorem applied_iff_justifies_torn :
    let e := Engine.new "web" .default
    let roster := Roster.ofList [("vm", "east")]
    let cycle (p : Policy) : Cycle := ⟨.insert ∅ .whole p, .single "memory" 100, 0, .empty⟩
    let grows := cycle (tenToHundred 50)
    let demands := [grows, cycle torn].map fun c => Demand.mk (.cycle c) busy roster 0
    (∃ before, grows.Turn before .whole (tenToHundred 50) ∧
      let planned := grows.plans (e.statusAt roster 0) busy roster before
      (tenToHundred 50).Justifies (e.statusAt roster 0)
        (grows.minimumFor planned .whole (tenToHundred 50))
        (grows.maximumFor planned .whole (tenToHundred 50)) busy roster .up) ∧
    (∃ refusal, (ZoneSet.whole, Except.error refusal) ∈ (e.enforceCycle (cycle torn) busy roster 0).1) ∧
    (e.meetAll demands).2.latest.get? .whole = some (.single "memory" 51) := by
  intro e roster cycle grows demands
  have trusts : ∀ r ∈ torn.rules, r.Trusts busy roster (.integer 95) := by
    intro r mem
    have same : r.statistic = ⟨"cpu", .avg, .ofMillis 300000, none, none⟩ := by
      revert r mem
      decide
    rw [Rule.Trusts, same]
    exact ⟨⟨.integer 95, .ofList ["vm"]⟩, by decide +kernel, by decide +kernel, by decide +kernel, rfl⟩
  have below : torn.Sees busy roster .below :=
    ⟨_, List.mem_cons_of_mem _ List.mem_cons_self, _, trusts _ (by decide), rfl⟩
  have above : torn.Sees busy roster .above :=
    ⟨_, List.mem_cons_self, _, trusts _ (by decide), ⟨.gt, rfl, by decide⟩, rfl⟩
  obtain ⟨cycles, latest, -⟩ := applied_iff_justifies e
  refine ⟨?_, ?_, ?_⟩
  · obtain ⟨before, turn, justified, -⟩ :=
      cycles grows busy roster 0 .whole (tenToHundred 50) (by decide +kernel)
    refine ⟨before, turn, ((justified (.single "memory" 50) (.single "memory" 51) .up).mp ?_).1⟩
    decide +kernel
  · obtain ⟨before, turn, -, refused⟩ := cycles (cycle torn) busy roster 0 .whole torn (by decide +kernel)
    obtain ⟨⟨refusal, only⟩, -⟩ := refused below above
    exact ⟨refusal, (only _).mpr rfl⟩
  · rw [latest demands .whole]
    decide +kernel

end Engine

end Autoscaler
