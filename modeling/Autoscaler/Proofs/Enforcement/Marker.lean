import Autoscaler.Proofs.Enforcement.Steps
import Autoscaler.Proofs.Enforcement.Totals

/-!
# Plans of nothing

A plan of no capacity is taken for none made yet. Here the zone sets that have decided are listed beside
the plans, and the floors of the others are taken by that list. In a cycle whose zone sets share one
maximum and start within it and within the total, nobody plans for nothing who holds something
(`holds_nothing`), and so both ways of telling who has decided come to the same verdicts
(`enforceCycle_eq_knowing`).
-/

namespace Autoscaler

/-! ## Cycles that know who has decided -/

namespace Holdings

/-- The least that a zone set may still claim, for those who know whether it has decided. -/
def floorKnowing (h : Holdings) (decided : List ZoneSet) (perZoneMin : Capacity) (o : ZoneSet) :
    Capacity :=
  if o ∈ decided then max perZoneMin (min (h.enforced.get o) (h.planned.get o))
  else max (h.enforced.get o) perZoneMin

def minimumKnowing (h : Holdings) (decided : List ZoneSet) (z : ZoneSet)
    (totalMin perZoneMin : Capacity) : Capacity :=
  max perZoneMin (totalMin - Capacity.sum ((h.others z).map (h.floorKnowing decided perZoneMin)))

/-- Whoever is listed has a plan, and plans for nothing only if it holds nothing. -/
structure Marks (h : Holdings) (decided : List ZoneSet) : Prop where
  listed : ∀ o, o ∈ decided ↔ (h.planned.get? o).isSome
  nothing : ∀ o, h.planned.get? o = some 0 → h.enforced.get o = 0

variable {h : Holdings} {decided : List ZoneSet}

theorem Marks.floor_eq (marks : h.Marks decided) (perZoneMin : Capacity) (o : ZoneSet) :
    h.floor perZoneMin o = h.floorKnowing decided perZoneMin o := by
  unfold floor floorKnowing
  cases made : h.planned.get? o with
  | none =>
    have unlisted : o ∉ decided := by simp [marks.listed, made]
    have zero : (h.planned.get o).isZero := by simp [Allocation.get_eq, made, Capacity.isZero_iff]
    rw [if_pos zero, if_neg unlisted]
  | some plan =>
    have listed : o ∈ decided := by simp [marks.listed, made]
    rw [if_pos listed]
    by_cases zero : plan = 0
    · subst zero
      ext d
      simp [Allocation.get_eq h.planned, made, marks.nothing o made, Capacity.isZero_iff]
    · rw [if_neg (by simpa [Allocation.get_eq, made, Capacity.isZero_iff] using zero)]

theorem Marks.minimumFor_eq (marks : h.Marks decided) (z : ZoneSet) (totalMin perZoneMin : Capacity) :
    h.minimumFor z totalMin perZoneMin = h.minimumKnowing decided z totalMin perZoneMin := by
  have floors : h.floor perZoneMin = h.floorKnowing decided perZoneMin :=
    funext (marks.floor_eq perZoneMin)
  rw [minimumFor, minimumKnowing, floors]

end Holdings

namespace Cycle

section
variable (c : Cycle) (status : Cooldown.Status) (statistics : Snapshot) (roster : Roster)

/-- The verdict on a zone set that is told its bounds. -/
def verdictBetween (minimum maximum : Capacity) (z : ZoneSet) (p : Policy) : Verdict :=
  match precondition? p status with
  | some refusal => .error refusal
  | none =>
    match minimum.firstExceeding? maximum with
    | some d => .error (.configurationConflict z minimum maximum d)
    | none => p.decide minimum maximum statistics roster

/-- The verdict on a zone set when those of a list have decided. -/
def verdictKnowing (decided : List ZoneSet) (planned : Allocation) (z : ZoneSet) (p : Policy) : Verdict :=
  verdictBetween status statistics roster
    ((c.holdings planned).minimumKnowing decided z c.totalMin p.minCapacity)
    (c.maximumFor planned z p) z p

def verdictsKnowingFrom : List ZoneSet → Allocation → List (ZoneSet × Policy) →
    List (ZoneSet × Verdict × Capacity)
  | _, _, [] => []
  | decided, planned, (z, p) :: rest =>
    let v := c.verdictKnowing status statistics roster decided planned z p
    let plan := v.plan p.current
    (z, v, plan) :: verdictsKnowingFrom (z :: decided) (planned.set z plan) rest

/-- The verdicts on all zone sets, each of which knows who has decided. -/
def verdictsKnowing : List (ZoneSet × Verdict × Capacity) :=
  c.verdictsKnowingFrom status statistics roster [] .empty c.policies.toList

end

variable {c : Cycle} {status : Cooldown.Status} {statistics : Snapshot} {roster : Roster}

theorem verdict_eq_knowing {decided : List ZoneSet} {planned : Allocation}
    (marks : (c.holdings planned).Marks decided) (z : ZoneSet) (p : Policy) :
    c.verdict status statistics roster planned z p =
      c.verdictKnowing status statistics roster decided planned z p := by
  rw [verdictKnowing, ← marks.minimumFor_eq]
  rfl

/-! ## Who plans for nothing -/

section
variable {most : Capacity} (level : c.Level most)
include level

/-- A step up leaves at least what there was, and a step down at least a minimum that is not zero. -/
theorem Level.current_eq_zero {before : List (ZoneSet × Policy)} {z : ZoneSet} {p : Policy}
    (turn : c.Turn before z p)
    (nothing : (c.verdict status statistics roster (c.plans status statistics roster before) z p).plan
      p.current = 0) : p.current = 0 := by
  have inTurn : before <+: c.policies.toList := (List.prefix_append _ _).trans turn
  rcases plan_cases c status statistics roster (c.plans status statistics roster before) z p with
    same | ⟨sound, -, up | down⟩
  · exact same.symm.trans nothing
  · ext d
    have ceiled : c.Ceiled (c.plans status statistics roster before) d := level.ceiled inTurn d
    have room := ceiled.current_le level.grounded turn
    have none := congrArg (fun plan => plan.get d) (up.symm.trans nothing)
    have kept := p.current.get_le d
    simp only [Capacity.get_min, Capacity.get_add, Capacity.get_zero] at none ⊢
    omega
  · refine absurd ?_ (Policy.fault?_eq_none.mp sound).least
    ext d
    have none := congrArg (fun plan => plan.get d) (down.symm.trans nothing)
    simp only [Capacity.get_max, minimumFor, Holdings.get_minimumFor, Capacity.get_zero] at none ⊢
    omega

theorem Level.holds_nothing {decided : List (ZoneSet × Policy)} (inTurn : decided <+: c.policies.toList) :
    ∀ o, (c.plans status statistics roster decided).get? o = some 0 → c.lastEnforced.get o = 0 := by
  refine plans_induction (P := fun planned => ∀ o, planned.get? o = some 0 → c.lastEnforced.get o = 0)
    (by simp) ?_ inTurn
  intro before z p turn held o nothing
  rw [Allocation.get?_set] at nothing
  split at nothing
  · rename_i same
    subst same
    rw [← level.grounded z p turn.policy_eq]
    exact level.current_eq_zero turn (Option.some.inj nothing)
  · exact held o nothing

end

/-! ## The marker -/

/-- The zone sets that have decided are those with a plan. -/
theorem isSome_get?_plans (decided : List (ZoneSet × Policy)) (o : ZoneSet) :
    ((c.plans status statistics roster decided).get? o).isSome ↔ o ∈ decided.map Prod.fst := by
  induction decided using List.reverseRecOn with
  | nil => simp [plans, plansFrom]
  | append_singleton before entry ih =>
    rw [plans_concat, Allocation.get?_set, List.map_append, List.mem_append, ← ih]
    by_cases same : entry.1 = o
    · simp [same]
    · simp [same, Ne.symm same]

variable (status statistics roster) in
theorem Level.marks {most : Capacity} (level : c.Level most) {decided : List (ZoneSet × Policy)}
    (inTurn : decided <+: c.policies.toList) :
    (c.holdings (c.plans status statistics roster decided)).Marks
      (decided.map Prod.fst).reverse where
  listed o := by rw [List.mem_reverse, holdings, isSome_get?_plans]
  nothing := level.holds_nothing inTurn

theorem Level.verdictsFrom_eq {most : Capacity} (level : c.Level most)
    (decided rest : List (ZoneSet × Policy)) (split : decided ++ rest = c.policies.toList) :
    c.verdictsFrom status statistics roster (c.plans status statistics roster decided) rest =
      c.verdictsKnowingFrom status statistics roster (decided.map Prod.fst).reverse
        (c.plans status statistics roster decided) rest := by
  induction rest generalizing decided with
  | nil => rfl
  | cons entry rest ih =>
    obtain ⟨z, p⟩ := entry
    -- Both runs have come to the same plans, and the marks on these make the next verdict the same.
    have marks := level.marks status statistics roster ⟨_, split⟩
    have verdict : c.verdict status statistics roster _ z p = _ := verdict_eq_knowing marks z p
    have later := ih (decided ++ [(z, p)]) (by simpa using split)
    rw [plans_concat, List.map_append, List.reverse_append] at later
    rw [verdictsFrom, verdictsKnowingFrom, ← verdict]
    exact congrArg _ later

end Cycle

/-! ## Engines -/

namespace Engine

/-- Enforces every zone set of a cycle in ascending order, each of which knows who has decided. -/
def enforceCycleKnowing (e : Engine) (c : Cycle) (statistics : Snapshot) (roster : Roster) (now : Nat) :
    List (ZoneSet × Verdict) × Engine :=
  let gate := e.observed roster now
  let verdicts := c.verdictsKnowing (gate.status now) statistics roster
  (verdicts.map fun (z, v, _) => (z, v),
    { e with
      gate := gate
      planned := .ofList (verdicts.map fun (z, _, plan) => (z, plan))
      latest := verdicts.foldl (fun latest (z, v, _) => record latest z v) e.latest })

/-- Where the zone sets of a cycle share one maximum and start within it and within the total, a plan of
nothing tells who has decided as well as a list does. -/
theorem enforceCycle_eq_knowing (e : Engine) {c : Cycle} {most : Capacity} (level : c.Level most)
    (statistics : Snapshot) (roster : Roster) (now : Nat) :
    e.enforceCycle c statistics roster now = e.enforceCycleKnowing c statistics roster now := by
  have same : c.verdicts ((e.observed roster now).status now) statistics roster =
      c.verdictsKnowing ((e.observed roster now).status now) statistics roster :=
    level.verdictsFrom_eq [] c.policies.toList rfl
  rw [enforceCycle, enforceCycleKnowing, same]

/-- One zone set holds nothing and is refused, so that it plans for nothing. The other then grows. -/
theorem enforceCycle_eq_knowing_refused :
    let e := Engine.new "web" .default
    let a : ZoneSet := .ofPieces ["a"] (by decide) (by decide)
    let b : ZoneSet := .ofPieces ["b"] (by decide) (by decide)
    let c : Cycle := ⟨.insert (.insert ∅ a { tenToHundred 0 with rules := [] }) b (tenToHundred 50),
      .single "memory" 100, .single "memory" 60, .ofList [(b, .single "memory" 50)]⟩
    let roster := Roster.ofList [("vm", "east")]
    c.Level (.single "memory" 100) ∧
      e.enforceCycle c busy roster 0 = e.enforceCycleKnowing c busy roster 0 ∧
      (e.enforceCycle c busy roster 0).2.planned.toList = [(a, 0), (b, .single "memory" 51)] := by
  intro e a b c roster
  have each : ∀ entry ∈ c.policies.toList, entry.2.current = c.lastEnforced.get entry.1 ∧
      entry.2.maxCapacity = .single "memory" 100 ∧ entry.2.current ≤ .single "memory" 100 := by
    decide +kernel
  have found {z : ZoneSet} {p : Policy} (policy : c.policies[z]? = some p) :=
    each (z, p) (Std.ExtTreeMap.mem_toList_iff_getElem?_eq_some.mpr policy)
  have level : c.Level (.single "memory" 100) := by
    refine ⟨fun z p policy => (found policy).1, fun z p policy => (found policy).2.1,
      fun z p policy => (found policy).2.2, fun d => ?_⟩
    have zones : c.zoneSets = [a, b] := by decide +kernel
    have nothing : c.lastEnforced.get a = 0 := by decide +kernel
    have held : c.lastEnforced.get b = .single "memory" 50 := by decide +kernel
    rw [Allocation.sumOver, zones, List.sum_toFinset _ (by decide)]
    simp only [List.map_cons, List.map_nil, List.sum_cons, List.sum_nil, nothing, held, Capacity.get_zero]
    show 0 + ((Capacity.single "memory" 50).get d + 0) ≤ (Capacity.single "memory" 100).get d
    rw [Capacity.get_single, Capacity.get_single]
    split
    · decide
    · decide
  exact ⟨level, enforceCycle_eq_knowing e level busy roster 0, by decide +kernel⟩

/-- Over the total the two may differ: one zone set is taken back to no capacity at all, and only those
who know that it has decided make up for it. -/
example :
    let e := Engine.new "web" .default
    let most := Capacity.ofPairs [("cores", 1), ("memory", 100)]
    let p : Policy := { tenToHundred 50 with maxCapacity := most, minCapacity := .single "cores" 1 }
    let q : Policy := { p with
      current := .single "memory" 100
      rules := p.rules.map fun r => { r with low := .integer 96, high := .integer 99 }
      decreaseStep := .single "memory" 60 }
    let a : ZoneSet := .ofPieces ["a"] (by decide) (by decide)
    let b : ZoneSet := .ofPieces ["b"] (by decide) (by decide)
    let c : Cycle := ⟨.insert (.insert ∅ a p) b q, .ofPairs [("cores", 5), ("memory", 100)],
      .single "memory" 100, .ofList [(a, p.current), (b, q.current)]⟩
    let roster := Roster.ofList [("vm", "east")]
    (e.enforceCycle c busy roster 0).2.planned.get? a = some 0 ∧
      ((e.enforceCycle c busy roster 0).2.planned.get b).get "memory" = 50 ∧
      ((e.enforceCycleKnowing c busy roster 0).2.planned.get b).get "memory" = 100 := by
  decide +kernel

end Engine

end Autoscaler
