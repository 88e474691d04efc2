import Autoscaler.Proofs.Enforcement.Decision
import Mathlib.Data.List.Induction

/-!
# Plans

What the zone sets of a cycle plan to hold. A plan is what the zone set holds, or a step from there
that stops at one of its bounds (`plan_cases`); in every dimension it therefore goes up at most to
the maximum and down at most to the minimum. The zone sets take turns, and `plans` is what those of a
list have planned after theirs.
-/

namespace Autoscaler

namespace Policy

variable {p : Policy} {minimum maximum : Capacity} {statistics : Snapshot} {roster : Roster}

section
variable {e : Evaluation} (evaluated : evaluate p.rules statistics roster = .ok e)
include evaluated

/-- Some rule asks for more and none for less: a step up as far as the maximum. -/
theorem plan_decide_of_above (low : e.belowLow = []) (high : e.aboveHigh ≠ []) :
    (p.decide minimum maximum statistics roster).plan p.current =
      min (p.current + p.increaseStep) maximum := by
  have advances : p.decide minimum maximum statistics roster = p.advance minimum maximum .up :=
    decide_of_asking evaluated high low
  rw [advances, plan_advance]
  rfl

theorem plan_decide_of_below (low : e.belowLow ≠ []) (high : e.aboveHigh = []) :
    (p.decide minimum maximum statistics roster).plan p.current =
      max (p.current - p.decreaseStep) minimum := by
  have advances : p.decide minimum maximum statistics roster = p.advance minimum maximum .down :=
    decide_of_asking evaluated low high
  rw [advances, plan_advance]
  rfl

/-- No rule asks for anything, or rules of both kinds do: nothing changes. -/
theorem plan_decide_of_steady (same : e.belowLow = [] ↔ e.aboveHigh = []) :
    (p.decide minimum maximum statistics roster).plan p.current = p.current := by
  by_cases low : e.belowLow = []
  · rw [decide_of_within evaluated low (same.mp low)]
    rfl
  · rw [decide_of_conflict evaluated low (same.not.mp low)]
    rfl

end

theorem plan_decide_cases : (p.decide minimum maximum statistics roster).plan p.current = p.current ∨
    (p.decide minimum maximum statistics roster).plan p.current =
      min (p.current + p.increaseStep) maximum ∨
    (p.decide minimum maximum statistics roster).plan p.current =
      max (p.current - p.decreaseStep) minimum := by
  obtain ⟨fault, -, decided⟩ | ⟨e, -, ⟨-, -, decided⟩ | ⟨-, -, decided⟩ | ⟨direction, -, -, decided⟩⟩ :=
    p.decide_cases minimum maximum statistics roster
  · exact .inl (by rw [decided]; rfl)
  · exact .inl (by rw [decided]; rfl)
  · exact .inl (by rw [decided]; rfl)
  · rw [decided, plan_advance]
    cases direction with
    | up => exact .inr (.inl rfl)
    | down => exact .inr (.inr rfl)

theorem decide_ne_conflict {o : ZoneSet} {least most : Capacity} {d : String} :
    p.decide minimum maximum statistics roster ≠ .error (.configurationConflict o least most d) := by
  intro conflict
  rcases p.refusal_of_decide conflict with ⟨fault, other⟩ | ⟨belowLow, aboveHigh, other⟩ | other
  all_goals cases other

theorem decide_ne_invalidPolicy {error : PolicyError} :
    p.decide minimum maximum statistics roster ≠ .error (.invalidPolicy error) := by
  intro faulty
  rcases p.refusal_of_decide faulty with ⟨fault, other⟩ | ⟨belowLow, aboveHigh, other⟩ | other
  all_goals cases other

theorem decide_ne_cooldown {remaining : Duration} :
    p.decide minimum maximum statistics roster ≠ .error (.cooldown remaining) := by
  intro waiting
  rcases p.refusal_of_decide waiting with ⟨fault, other⟩ | ⟨belowLow, aboveHigh, other⟩ | other
  all_goals cases other

end Policy

namespace Cycle

variable (c : Cycle) (status : Cooldown.Status) (statistics : Snapshot) (roster : Roster)

section
variable (planned : Allocation) (z : ZoneSet) (p : Policy)

variable {c status statistics roster planned z p} in
/-- A conflict of bounds is reported only where the minimum exceeds the maximum. -/
theorem not_le_of_verdict_eq_conflict {o : ZoneSet} {minimum maximum : Capacity} {d : String}
    (conflict : c.verdict status statistics roster planned z p =
      .error (.configurationConflict o minimum maximum d)) :
    ¬ c.minimumFor planned z p ≤ c.maximumFor planned z p := by
  obtain ⟨_, -, refused⟩ | ⟨-, ⟨_, -, refused⟩ | ⟨-, ⟨_, exceeds, -⟩ | ⟨-, decided⟩⟩⟩ :=
    c.verdict_cases status statistics roster planned z p
  · cases refused.symm.trans conflict
  · cases refused.symm.trans conflict
  · exact exceeds
  · exact absurd (decided.symm.trans conflict) p.decide_ne_conflict

/-- Once the cooldown is over, no verdict is about it. -/
theorem verdict_ne_cooldown (remaining : Duration) :
    c.verdict .ready statistics roster planned z p ≠ .error (.cooldown remaining) := by
  intro waiting
  obtain ⟨_, -, refused⟩ | ⟨-, ⟨_, active, -⟩ | ⟨-, ⟨_, -, refused⟩ | ⟨-, decided⟩⟩⟩ :=
    c.verdict_cases .ready statistics roster planned z p
  · cases refused.symm.trans waiting
  · cases active
  · cases refused.symm.trans waiting
  · exact p.decide_ne_cooldown (decided.symm.trans waiting)

variable {c status statistics roster planned z p} in
/-- A policy without fault is never refused for one. -/
theorem verdict_ne_invalidPolicy (sound : p.fault? = none) (reason : PolicyError) :
    c.verdict status statistics roster planned z p ≠ .error (.invalidPolicy reason) := by
  intro faulty
  obtain ⟨_, fault, -⟩ | ⟨-, ⟨_, -, refused⟩ | ⟨-, ⟨_, -, refused⟩ | ⟨-, decided⟩⟩⟩ :=
    c.verdict_cases status statistics roster planned z p
  · cases sound.symm.trans fault
  · cases refused.symm.trans faulty
  · cases refused.symm.trans faulty
  · exact p.decide_ne_invalidPolicy (decided.symm.trans faulty)

variable {c status statistics roster planned z p} in
/-- A change is applied to what the zone set holds. -/
theorem old_of_verdict_eq_applied {old new : Capacity} {direction : Direction}
    (applied : c.verdict status statistics roster planned z p = .ok (.applied old new direction)) :
    old = p.current :=
  (Policy.decide_eq_applied (decide_of_verdict_eq_applied applied).2.2).1

variable {c status statistics roster planned z p} in
/-- Where no rule asks for a change, refused or not, a zone set keeps what it holds. -/
theorem plan_eq_of_steady {e : Evaluation} (evaluated : evaluate p.rules statistics roster = .ok e)
    (same : e.belowLow = [] ↔ e.aboveHigh = []) :
    (c.verdict status statistics roster planned z p).plan p.current = p.current := by
  obtain ⟨refusal, refused⟩ | ⟨-, -, -, decided⟩ := c.refused_or_decided status statistics roster planned z p
  · rw [refused]
    rfl
  · rw [decided]
    exact Policy.plan_decide_of_steady evaluated same

/-- A zone set keeps what it holds, or steps between bounds that do not conflict. -/
theorem plan_cases :
    (c.verdict status statistics roster planned z p).plan p.current = p.current ∨
    p.fault? = none ∧ c.minimumFor planned z p ≤ c.maximumFor planned z p ∧
      ((c.verdict status statistics roster planned z p).plan p.current =
          min (p.current + p.increaseStep) (c.maximumFor planned z p) ∨
        (c.verdict status statistics roster planned z p).plan p.current =
          max (p.current - p.decreaseStep) (c.minimumFor planned z p)) := by
  obtain ⟨refusal, refused⟩ | ⟨sound, -, fits, decided⟩ :=
    c.refused_or_decided status statistics roster planned z p
  · exact .inl (by rw [refused]; rfl)
  · rw [decided]
    rcases p.plan_decide_cases with same | stepped
    · exact .inl same
    · exact .inr ⟨sound, fits, stepped⟩

theorem plan_le (d : String) :
    ((c.verdict status statistics roster planned z p).plan p.current).get d ≤ p.current.get d ∨
    p.fault? = none ∧ ((c.verdict status statistics roster planned z p).plan p.current).get d ≤
      (c.maximumFor planned z p).get d := by
  rcases plan_cases c status statistics roster planned z p with same | ⟨sound, fits, up | down⟩
  · exact .inl (Nat.le_of_eq (by rw [same]))
  · refine .inr ⟨sound, ?_⟩
    rw [up, Capacity.get_min]
    exact Nat.min_le_right _ _
  · have room := fits d
    rw [down, Capacity.get_max, Capacity.get_sub]
    by_cases reached : p.current.get d - p.decreaseStep.get d ≤ (c.minimumFor planned z p).get d
    · exact .inr ⟨sound, by omega⟩
    · exact .inl (by omega)

theorem le_plan (d : String) :
    p.current.get d ≤ ((c.verdict status statistics roster planned z p).plan p.current).get d ∨
    p.fault? = none ∧ (c.minimumFor planned z p).get d ≤
      ((c.verdict status statistics roster planned z p).plan p.current).get d := by
  rcases plan_cases c status statistics roster planned z p with same | ⟨sound, fits, up | down⟩
  · exact .inl (Nat.le_of_eq (by rw [same]))
  · have room := fits d
    have kept := p.current.get_le d
    rw [up, Capacity.get_min, Capacity.get_add]
    by_cases reached : (c.maximumFor planned z p).get d ≤ p.current.get d
    · exact .inr ⟨sound, by omega⟩
    · exact .inl (by omega)
  · refine .inr ⟨sound, ?_⟩
    rw [down, Capacity.get_max]
    exact Nat.le_max_right _ _

end

/-! ## Turns -/

/-- The plans once the zone sets of a list have decided in turn, added to those made before. -/
def plansFrom : Allocation → List (ZoneSet × Policy) → Allocation
  | planned, [] => planned
  | planned, (z, p) :: rest =>
    plansFrom (planned.set z ((c.verdict status statistics roster planned z p).plan p.current)) rest

/-- The plans once the zone sets of a list have decided in turn, the first of them without any. -/
def plans (decided : List (ZoneSet × Policy)) : Allocation :=
  c.plansFrom status statistics roster .empty decided

/-- It is the turn of a zone set when those before it have decided. -/
def Turn (before : List (ZoneSet × Policy)) (z : ZoneSet) (p : Policy) : Prop :=
  before ++ [(z, p)] <+: c.policies.toList

variable {c status statistics roster}

theorem plansFrom_append (planned : Allocation) (first second : List (ZoneSet × Policy)) :
    c.plansFrom status statistics roster planned (first ++ second) =
      c.plansFrom status statistics roster
        (c.plansFrom status statistics roster planned first) second := by
  induction first generalizing planned with
  | nil => rfl
  | cons entry rest ih => exact ih _

theorem plans_concat (before : List (ZoneSet × Policy)) (z : ZoneSet) (p : Policy) :
    c.plans status statistics roster (before ++ [(z, p)]) =
      (c.plans status statistics roster before).set z ((c.verdict status statistics roster
        (c.plans status statistics roster before) z p).plan p.current) :=
  plansFrom_append .empty before [(z, p)]

theorem get?_plansFrom_of_not_mem {entries : List (ZoneSet × Policy)} {z : ZoneSet}
    (absent : z ∉ entries.map Prod.fst) (planned : Allocation) :
    (c.plansFrom status statistics roster planned entries).get? z = planned.get? z := by
  induction entries generalizing planned with
  | nil => rfl
  | cons entry rest ih =>
    rw [List.map_cons, List.mem_cons, not_or] at absent
    rw [plansFrom, ih absent.2, Allocation.get?_set, if_neg (Ne.symm absent.1)]

theorem zoneSets_eq : c.zoneSets = c.policies.toList.map Prod.fst :=
  Std.ExtTreeMap.map_fst_toList_eq_keys.symm

theorem nodup_zoneSets : c.zoneSets.Nodup := Std.ExtTreeMap.nodup_keys

theorem mem_zoneSets {z : ZoneSet} : z ∈ c.zoneSets ↔ ∃ p, c.policies[z]? = some p := by
  rw [zoneSets, Std.ExtTreeMap.mem_keys, Std.ExtTreeMap.mem_iff_isSome_getElem?,
    Option.isSome_iff_exists]

namespace Turn

variable {before : List (ZoneSet × Policy)} {z : ZoneSet} {p : Policy} (turn : c.Turn before z p)
include turn

theorem policy_eq : c.policies[z]? = some p :=
  Std.ExtTreeMap.mem_toList_iff_getElem?_eq_some.mp (turn.subset (by simp))

theorem mem_zoneSets : z ∈ c.zoneSets :=
  Cycle.mem_zoneSets.mpr ⟨p, turn.policy_eq⟩

/-- Every zone set decides once. -/
theorem not_mem_before : z ∉ before.map Prod.fst := by
  obtain ⟨after, split⟩ := turn
  have distinct := nodup_zoneSets (c := c)
  rw [zoneSets_eq, ← split, List.map_append, List.map_append] at distinct
  intro listed
  have apart := (List.nodup_append.mp (List.nodup_append.mp distinct).1).2.2
  exact apart z listed z (by simp) rfl

theorem unique {before' : List (ZoneSet × Policy)} {q : Policy} (other : c.Turn before' z q) :
    before' = before ∧ q = p := by
  have apart : ∀ {first second : List (ZoneSet × Policy)} {r s : Policy}, c.Turn second z s →
      ¬ first ++ [(z, r)] <+: second := by
    intro first second r s later earlier
    exact later.not_mem_before (List.mem_map.mpr ⟨(z, r), earlier.subset (by simp), rfl⟩)
  rcases List.prefix_or_prefix_of_prefix turn other with within | within
  · rcases List.prefix_concat_iff.mp within with same | earlier
    · simpa [eq_comm] using same
    · exact absurd earlier (apart other)
  · rcases List.prefix_concat_iff.mp within with same | earlier
    · simpa using same
    · exact absurd earlier (apart turn)

/-- Whoever's turn it is has no plan yet. -/
theorem get?_plans : (c.plans status statistics roster before).get? z = none := by
  rw [plans, get?_plansFrom_of_not_mem turn.not_mem_before, Allocation.get?_empty]

/-- What a zone set plans in its turn is its plan at the end of the cycle. -/
theorem get?_plans_toList : (c.plans status statistics roster c.policies.toList).get? z =
    some ((c.verdict status statistics roster (c.plans status statistics roster before) z p).plan
      p.current) := by
  obtain ⟨after, split⟩ := turn
  have distinct := nodup_zoneSets (c := c)
  rw [zoneSets_eq, ← split, List.map_append] at distinct
  have absent : z ∉ after.map Prod.fst := by
    intro listed
    exact (List.nodup_append.mp distinct).2.2 z (by simp) z listed rfl
  rw [plans, ← split, plansFrom_append, get?_plansFrom_of_not_mem absent]
  show (c.plans status statistics roster (before ++ [(z, p)])).get? z = _
  rw [plans_concat, Allocation.get?_set, if_pos rfl]

end Turn

theorem exists_turn {z : ZoneSet} {p : Policy} (found : c.policies[z]? = some p) :
    ∃ before, c.Turn before z p := by
  have listed := Std.ExtTreeMap.mem_toList_iff_getElem?_eq_some.mpr found
  obtain ⟨before, after, split⟩ := List.append_of_mem listed
  exact ⟨before, after, by simp [split]⟩

variable (status statistics roster) in
theorem exists_plan {z : ZoneSet} (mem : z ∈ c.zoneSets) :
    ∃ plan, (c.plans status statistics roster c.policies.toList).get? z = some plan := by
  obtain ⟨p, found⟩ := mem_zoneSets.mp mem
  obtain ⟨before, turn⟩ := exists_turn found
  exact ⟨_, turn.get?_plans_toList⟩

/-- What holds before any zone set has decided, and is kept by every turn, holds of the plans
throughout the cycle. -/
theorem plans_induction {P : Allocation → Prop} (start : P .empty)
    (step : ∀ before z p, c.Turn before z p → P (c.plans status statistics roster before) →
      P ((c.plans status statistics roster before).set z ((c.verdict status statistics roster
        (c.plans status statistics roster before) z p).plan p.current)))
    {decided : List (ZoneSet × Policy)} (inTurn : decided <+: c.policies.toList) :
    P (c.plans status statistics roster decided) := by
  induction decided using List.reverseRecOn with
  | nil => exact start
  | append_singleton before entry ih =>
    obtain ⟨z, p⟩ := entry
    rw [plans_concat]
    exact step before z p inTurn (ih ((List.prefix_append _ _).trans inTurn))

/-! ## The verdicts of a cycle -/

theorem mem_verdictsFrom {planned : Allocation} {entries : List (ZoneSet × Policy)} {z : ZoneSet}
    {v : Verdict} {plan : Capacity} :
    (z, v, plan) ∈ c.verdictsFrom status statistics roster planned entries ↔
      ∃ before p, before ++ [(z, p)] <+: entries ∧ v = c.verdict status statistics roster
        (c.plansFrom status statistics roster planned before) z p ∧ plan = v.plan p.current := by
  induction entries generalizing planned with
  | nil => simp [verdictsFrom]
  | cons entry rest ih =>
    obtain ⟨o, q⟩ := entry
    rw [verdictsFrom, List.mem_cons, ih]
    constructor
    · rintro (same | ⟨before, p, inTurn, verdict, plan⟩)
      · cases same
        exact ⟨[], q, by simp, rfl, rfl⟩
      · exact ⟨(o, q) :: before, p, by simpa using inTurn, verdict, plan⟩
    · rintro ⟨before, p, inTurn, verdict, plan⟩
      cases before with
      | nil =>
        obtain ⟨same, -⟩ := List.cons_prefix_cons.mp inTurn
        cases same
        subst verdict plan
        exact .inl rfl
      | cons first others =>
        obtain ⟨same, later⟩ := List.cons_prefix_cons.mp inTurn
        subst same
        exact .inr ⟨others, p, later, verdict, plan⟩

theorem map_fst_verdictsFrom (planned : Allocation) (entries : List (ZoneSet × Policy)) :
    (c.verdictsFrom status statistics roster planned entries).map Prod.fst = entries.map Prod.fst := by
  induction entries generalizing planned with
  | nil => rfl
  | cons entry rest ih => exact congrArg (entry.1 :: ·) (ih _)

theorem foldl_set_verdictsFrom (planned : Allocation) (entries : List (ZoneSet × Policy)) :
    ((c.verdictsFrom status statistics roster planned entries).map
      fun (z, _, plan) => (z, plan)).foldl (fun a e => a.set e.1 e.2) planned =
      c.plansFrom status statistics roster planned entries := by
  induction entries generalizing planned with
  | nil => rfl
  | cons entry rest ih => exact ih _

end Cycle

namespace Engine

variable {e : Engine} {c : Cycle} {statistics : Snapshot} {roster : Roster} {now : Nat}

/-- Whether the cooldown of an engine allows a decision, once it has seen the instances of now. -/
def statusAt (e : Engine) (roster : Roster) (now : Nat) : Cooldown.Status :=
  (e.observed roster now).status now

/-- No cooldown holds back the first decision of an engine. -/
theorem statusAt_new (workload : String) (windows : Cooldown.Windows) (roster : Roster) (now : Nat) :
    (new workload windows).statusAt roster now = .ready := rfl

theorem mem_enforceCycle {z : ZoneSet} {v : Verdict} :
    (z, v) ∈ (e.enforceCycle c statistics roster now).1 ↔
      ∃ before p, c.Turn before z p ∧ v = c.verdict (e.statusAt roster now) statistics roster
        (c.plans (e.statusAt roster now) statistics roster before) z p := by
  have entry : (z, v) ∈ (e.enforceCycle c statistics roster now).1 ↔
      ∃ plan, (z, v, plan) ∈ c.verdicts (e.statusAt roster now) statistics roster := by
    simp [enforceCycle, statusAt]
  rw [entry]
  constructor
  · rintro ⟨plan, listed⟩
    obtain ⟨before, p, turn, verdict, -⟩ := Cycle.mem_verdictsFrom.mp listed
    exact ⟨before, p, turn, verdict⟩
  · rintro ⟨before, p, turn, verdict⟩
    exact ⟨_, Cycle.mem_verdictsFrom.mpr ⟨before, p, turn, verdict, rfl⟩⟩

theorem mem_enforceCycle_of_turn {before : List (ZoneSet × Policy)} {z : ZoneSet} {p : Policy}
    (turn : c.Turn before z p) {v : Verdict} :
    (z, v) ∈ (e.enforceCycle c statistics roster now).1 ↔ v = c.verdict (e.statusAt roster now)
      statistics roster (c.plans (e.statusAt roster now) statistics roster before) z p := by
  rw [mem_enforceCycle]
  constructor
  · rintro ⟨others, q, other, verdict⟩
    obtain ⟨rfl, rfl⟩ := turn.unique other
    exact verdict
  · exact fun verdict => ⟨before, p, turn, verdict⟩

/-- Every zone set of a cycle gets one verdict, in ascending order. -/
theorem map_fst_enforceCycle :
    (e.enforceCycle c statistics roster now).1.map Prod.fst = c.zoneSets := by
  rw [enforceCycle, List.map_map, Cycle.zoneSets_eq]
  exact Cycle.map_fst_verdictsFrom .empty c.policies.toList

theorem planned_enforceCycle : (e.enforceCycle c statistics roster now).2.planned =
    c.plans (e.statusAt roster now) statistics roster c.policies.toList :=
  Cycle.foldl_set_verdictsFrom .empty c.policies.toList

end Engine

end Autoscaler
