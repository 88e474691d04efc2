import Autoscaler.Proofs.Enforcement.Limits

/-!
# Limits that disagree

Where the limits of two zone sets disagree, some cycle with these limits starts within its totals and
plans to leave them (`keepsTotals_iff`). In such a cycle nothing is to spare in the totals, and one
zone set moves while all others stay as they are: up, when another holds more than the mover's own
maximum (`gains_of_capped`), or down, when another holds less than its minimum (`loses_of_raised`).
-/

namespace Autoscaler

namespace Cycle

/-! ## One zone set moves -/

/-- No zone set but one changes what it holds, whatever the others plan. -/
def OnlyMoves (c : Cycle) (status : Cooldown.Status) (statistics : Snapshot) (roster : Roster)
    (mover : ZoneSet) : Prop :=
  ∀ (o : ZoneSet) (q : Policy), c.policies[o]? = some q → o ≠ mover → ∀ planned,
    (c.verdict status statistics roster planned o q).plan q.current = q.current

section
variable {c : Cycle} {status : Cooldown.Status} {statistics : Snapshot} {roster : Roster}
  {mover : ZoneSet} (settled : c.Settled) (only : c.OnlyMoves status statistics roster mover)
include settled only

theorem get?_plans_of_onlyMoves {decided : List (ZoneSet × Policy)}
    (inTurn : decided <+: c.policies.toList) {o : ZoneSet} (different : o ≠ mover) :
    (c.plans status statistics roster decided).get? o = none ∨
      (c.plans status statistics roster decided).get? o = some (c.lastEnforced.get o) := by
  refine plans_induction (P := fun planned => planned.get? o = none ∨
    planned.get? o = some (c.lastEnforced.get o)) (.inl (Allocation.get?_empty o)) ?_ inTurn
  intro before z p turn kept
  rw [Allocation.get?_set]
  by_cases same : z = o
  · subst same
    rw [if_pos rfl, only z p turn.policy_eq different, settled.grounded z p turn.policy_eq]
    exact .inr rfl
  · rw [if_neg same]
    exact kept

section
variable {before : List (ZoneSet × Policy)} {p : Policy} (turn : c.Turn before mover p)
include turn

theorem get?_plans_turn (o : ZoneSet) : (c.plans status statistics roster before).get? o = none ∨
    (c.plans status statistics roster before).get? o = some (c.lastEnforced.get o) := by
  by_cases same : o = mover
  · subst same
    exact .inl turn.get?_plans
  · exact get?_plans_of_onlyMoves settled only ((List.prefix_append _ _).trans turn) same

theorem most_of_onlyMoves (d : String) (o : ZoneSet) :
    (c.holdings (c.plans status statistics roster before)).most d o =
      (c.lastEnforced.get o).get d := by
  rcases get?_plans_turn settled only turn o with unplanned | kept
  · exact Holdings.most_eq_of_unplanned unplanned
  · simp [Holdings.most, holdings, Allocation.get_eq (c.plans status statistics roster before), kept]

theorem least_of_onlyMoves (d : String) (o : ZoneSet) :
    (c.holdings (c.plans status statistics roster before)).least d o =
      (c.lastEnforced.get o).get d := by
  rcases get?_plans_turn settled only turn o with unplanned | kept
  · exact Holdings.least_eq_of_unplanned unplanned
  · simp [Holdings.least, holdings, kept]

theorem fits_of_onlyMoves :
    c.minimumFor (c.plans status statistics roster before) mover p ≤ p.current ∧
      p.current ≤ c.maximumFor (c.plans status statistics roster before) mover p := by
  constructor
  · intro d
    refine Floored.le_current settled.grounded turn ⟨fun o q found => ?_, ?_⟩
    · rw [least_of_onlyMoves settled only turn, ← settled.grounded o q found]
      exact settled.least o q found d
    · simp only [least_of_onlyMoves settled only turn]
      exact settled.floor d
  · intro d
    refine Ceiled.current_le settled.grounded turn ⟨fun o q found => ?_, ?_⟩
    · rw [most_of_onlyMoves settled only turn, ← settled.grounded o q found]
      exact settled.most o q found d
    · simp only [most_of_onlyMoves settled only turn]
      exact settled.ceiling d

/-- The total changes by as much as the mover does. -/
theorem sumOver_plans_of_onlyMoves (d : String) :
    (c.plans status statistics roster c.policies.toList).sumOver c.zoneSets d + p.current.get d =
      c.lastEnforced.sumOver c.zoneSets d + ((c.verdict status statistics roster
        (c.plans status statistics roster before) mover p).plan p.current).get d := by
  have mem := List.mem_toFinset.mpr turn.mem_zoneSets
  have others : ∑ o ∈ c.zoneSets.toFinset.erase mover,
      ((c.plans status statistics roster c.policies.toList).get o).get d =
      ∑ o ∈ c.zoneSets.toFinset.erase mover, (c.lastEnforced.get o).get d := by
    refine Finset.sum_congr rfl fun o other => ?_
    obtain ⟨different, listed⟩ := Finset.mem_erase.mp other
    obtain ⟨plan, made⟩ := exists_plan status statistics roster (List.mem_toFinset.mp listed)
    rcases get?_plans_of_onlyMoves settled only (List.prefix_refl _) different with none | kept
    · rw [none] at made
      cases made
    · rw [Allocation.get_eq, kept, Option.getD_some]
  rw [Allocation.sumOver, Allocation.sumOver, ← Finset.add_sum_erase _ _ mem,
    ← Finset.add_sum_erase _ _ mem, others, Allocation.get_eq, turn.get?_plans_toList,
    Option.getD_some, settled.grounded mover p turn.policy_eq]
  omega

/-- Above its thresholds and under its maximum, the mover gains when another zone set holds more than
that maximum: it counts with less than the other holds, and so with room in the total. -/
theorem gains_of_capped {e : Evaluation} {o : ZoneSet} {d : String} (ready : status = .ready)
    (evaluated : evaluate p.rules statistics roster = .ok e) (low : e.belowLow = [])
    (high : e.aboveHigh ≠ []) (step : 0 < p.increaseStep.get d)
    (room : p.current.get d < p.maxCapacity.get d) (other : o ∈ c.zoneSets) (different : o ≠ mover)
    (capped : p.maxCapacity.get d < (c.lastEnforced.get o).get d) :
    p.current.get d < ((c.verdict status statistics roster
      (c.plans status statistics roster before) mover p).plan p.current).get d := by
  have fits := fits_of_onlyMoves settled only turn
  have holds : (c.lastEnforced.get mover).get d = p.current.get d := by
    rw [settled.grounded mover p turn.policy_eq]
  have below : p.current.get d <
      (c.maximumFor (c.plans status statistics roster before) mover p).get d := by
    rw [← holds] at room ⊢
    refine Holdings.lt_maximumFor (h := c.holdings (c.plans status statistics roster before))
      nodup_zoneSets turn.mem_zoneSets turn.get?_plans ?_ room
      (List.mem_filter.mpr ⟨other, decide_eq_true different⟩) ?_
    · simp only [most_of_onlyMoves settled only turn]
      exact settled.ceiling d
    · rw [most_of_onlyMoves settled only turn]
      exact capped
  have kept := p.maxCapacity.get_le d
  rw [verdict_eq_decide statistics roster (settled.sound mover p turn.policy_eq) ready
    (fun d => (fits.1 d).trans (fits.2 d)), Policy.plan_decide_of_above evaluated low high,
    Capacity.get_min, Capacity.get_add]
  omega

/-- Below its thresholds and over its minimum, the mover loses when another zone set holds less than
that minimum: it counts with more than the other holds, and so with room in the total. -/
theorem loses_of_raised {e : Evaluation} {o : ZoneSet} {d : String} (ready : status = .ready)
    (evaluated : evaluate p.rules statistics roster = .ok e) (low : e.belowLow ≠ [])
    (high : e.aboveHigh = []) (step : 0 < p.decreaseStep.get d)
    (room : p.minCapacity.get d < p.current.get d) (other : o ∈ c.zoneSets) (different : o ≠ mover)
    (raised : (c.lastEnforced.get o).get d < p.minCapacity.get d) :
    ((c.verdict status statistics roster
      (c.plans status statistics roster before) mover p).plan p.current).get d < p.current.get d := by
  have fits := fits_of_onlyMoves settled only turn
  have holds : (c.lastEnforced.get mover).get d = p.current.get d := by
    rw [settled.grounded mover p turn.policy_eq]
  have above : (c.minimumFor (c.plans status statistics roster before) mover p).get d <
      p.current.get d := by
    rw [← holds] at room ⊢
    refine Holdings.minimumFor_lt (h := c.holdings (c.plans status statistics roster before))
      nodup_zoneSets turn.mem_zoneSets turn.get?_plans ?_ room
      (List.mem_filter.mpr ⟨other, decide_eq_true different⟩) ?_
    · simp only [least_of_onlyMoves settled only turn]
      exact settled.floor d
    · rw [least_of_onlyMoves settled only turn]
      exact raised
  rw [verdict_eq_decide statistics roster (settled.sound mover p turn.policy_eq) ready
    (fun d => (fits.1 d).trans (fits.2 d)), Policy.plan_decide_of_below evaluated low high,
    Capacity.get_max, Capacity.get_sub]
  omega

end

end

end Cycle

/-! ## Cycles at the edge of their limits -/

/-- What makes a cycle at the edge of its limits: the limits, a zone set that is to move, and one that
is to hold an amount of a dimension. All others hold their minimum. -/
structure Edge where
  limits : Cycle
  mover : ZoneSet
  loaded : ZoneSet
  dimension : String
  amount : Nat

namespace Edge

/-- The statistic that all rules are about. -/
def load : StatisticId := ⟨"load", .avg, .ofMillis 300000, none, none⟩

/-- A rule that asks for a change unless the load is zero. -/
def eager : Rule := ⟨load, .integer 0, .integer 0⟩

/-- A rule that asks for none while the load is between -1 and 1. -/
def calm : Rule := ⟨load, .integer (-1), .integer 1⟩

/-- The only instance reports a load. -/
def reported (value : Int64) : Snapshot := .ofList [(load, ⟨.integer value, .ofList ["vm"]⟩)]

/-- The only instance. -/
def instances : Roster := .ofList [("vm", "a")]

variable (e : Edge)

/-- What a zone set holds. -/
def held (z : ZoneSet) : Capacity :=
  if z = e.loaded then max (e.limits.lower z) (.single e.dimension e.amount) else e.limits.lower z

/-- The policy of a zone set within its limits. -/
def policy (z : ZoneSet) (p : Policy) : Policy where
  current := e.held z
  rules := [if z = e.mover then eager else calm]
  increaseStep := .single e.dimension 1
  decreaseStep := .single e.dimension 1
  maxCapacity := p.maxCapacity
  minCapacity := p.minCapacity

/-- The cycle. Its totals leave nothing to spare. -/
def cycle : Cycle where
  policies := e.limits.policies.map e.policy
  totalMax := .sum (e.limits.zoneSets.map e.held)
  totalMin := .sum (e.limits.zoneSets.map e.held)
  lastEnforced := .ofList (e.limits.zoneSets.map fun z => (z, e.held z))

theorem getElem?_policies (z : ZoneSet) :
    e.cycle.policies[z]? = (e.limits.policies[z]?).map (e.policy z) :=
  Std.ExtTreeMap.getElem?_map

theorem zoneSets_cycle : e.cycle.zoneSets = e.limits.zoneSets := Std.ExtTreeMap.keys_map

theorem sameLimits : e.limits.SameLimits e.cycle := by
  intro z
  rw [getElem?_policies, Option.map_map]
  rfl

variable {e}

theorem exists_policy {z : ZoneSet} {p : Policy} (found : e.cycle.policies[z]? = some p) :
    ∃ q, e.limits.policies[z]? = some q ∧ p = e.policy z q := by
  rw [getElem?_policies] at found
  obtain ⟨q, original, same⟩ := Option.map_eq_some_iff.mp found
  exact ⟨q, original, same.symm⟩

theorem get_lastEnforced {z : ZoneSet} (mem : z ∈ e.limits.zoneSets) :
    e.cycle.lastEnforced.get z = e.held z :=
  Allocation.get_ofList_map mem e.held

theorem step_pos (d : String) : 0 < (Capacity.single d 1).get d := by
  rw [Capacity.get_single, if_pos rfl]
  decide

theorem step_ne_zero (d : String) : Capacity.single d 1 ≠ 0 := by
  intro none
  have positive := step_pos d
  rw [none, Capacity.get_zero] at positive
  exact Nat.lt_irrefl 0 positive

theorem sound_policy {z : ZoneSet} {p : Policy} (sound : p.fault? = none) :
    (e.policy z p).fault? = none := by
  obtain ⟨-, -, -, -, most, least, least_le_most, -⟩ := Policy.fault?_eq_none.mp sound
  refine Policy.fault?_eq_none.mpr ⟨by simp [policy], rfl, step_ne_zero _, step_ne_zero _, most, least,
    least_le_most, fun r listed => ?_⟩
  rw [List.mem_singleton.mp listed]
  split
  · rfl
  · rfl

theorem lower_le_held (z : ZoneSet) : e.limits.lower z ≤ e.held z := by
  intro d
  rw [held]
  split
  · rw [Capacity.get_max]
    exact Nat.le_max_left _ _
  · exact Nat.le_refl _

theorem amount_le_held (fits : e.amount ≤ e.limits.reach e.dimension e.loaded) :
    e.amount ≤ (e.held e.loaded).get e.dimension := by
  have most : e.limits.reach e.dimension e.loaded ≤ maxAmount :=
    (Nat.min_le_right _ _).trans (Nat.sub_le _ _)
  rw [held, if_pos rfl, Capacity.get_max, Capacity.get_single, if_pos rfl]
  omega

section
variable (settled : e.limits.Settled) (mem : e.loaded ∈ e.limits.zoneSets)
  (fits : e.amount ≤ e.limits.reach e.dimension e.loaded)
include settled mem fits

theorem held_le_reach (d : String) : (e.held e.loaded).get d ≤ e.limits.reach d e.loaded := by
  have least : (e.limits.lower e.loaded).get d ≤ e.limits.reach d e.loaded :=
    (settled.lower_le mem d).trans (settled.holds_le_reach mem)
  rw [held, if_pos rfl, Capacity.get_max, Capacity.get_single]
  split
  · rename_i same
    subst same
    omega
  · omega

theorem held_le_upper {z : ZoneSet} (listed : z ∈ e.limits.zoneSets) :
    e.held z ≤ e.limits.upper z := by
  intro d
  by_cases same : z = e.loaded
  · subst same
    exact (held_le_reach settled mem fits d).trans (Nat.min_le_left _ _)
  · rw [held, if_neg same]
    exact (settled.lower_le listed d).trans (settled.le_upper listed d)

theorem sum_held_le (d : String) :
    ∑ z ∈ e.limits.zoneSets.toFinset, (e.held z).get d ≤ maxAmount := by
  have others : ∑ z ∈ e.limits.zoneSets.toFinset.erase e.loaded, (e.held z).get d =
      ∑ z ∈ e.limits.zoneSets.toFinset.erase e.loaded, (e.limits.lower z).get d := by
    refine Finset.sum_congr rfl fun z other => ?_
    rw [held, if_neg (Finset.ne_of_mem_erase other)]
  have reached := held_le_reach settled mem fits d
  have least := settled.sum_lower_le e.loaded d
  rw [← Finset.add_sum_erase _ _ (List.mem_toFinset.mpr mem), others]
  rw [Cycle.reach] at reached
  omega

theorem get_total (d : String) : (Capacity.sum (e.limits.zoneSets.map e.held)).get d =
    e.cycle.lastEnforced.sumOver e.cycle.zoneSets d := by
  have same : ∀ z ∈ e.limits.zoneSets.toFinset,
      (e.cycle.lastEnforced.get z).get d = (e.held z).get d := by
    intro z listed
    rw [get_lastEnforced (List.mem_toFinset.mp listed)]
  rw [Capacity.get_sum, List.map_map, zoneSets_cycle, Allocation.sumOver, Finset.sum_congr rfl same,
    ← List.sum_toFinset _ Cycle.nodup_zoneSets]
  exact Nat.min_eq_left (sum_held_le settled mem fits d)

theorem settled_cycle : e.cycle.Settled where
  sound z p found := by
    obtain ⟨q, original, rfl⟩ := exists_policy found
    exact sound_policy (settled.sound z q original)
  grounded z p found := by
    obtain ⟨q, original, rfl⟩ := exists_policy found
    exact (get_lastEnforced (Cycle.mem_zoneSets.mpr ⟨q, original⟩)).symm
  least z p found := by
    obtain ⟨q, original, rfl⟩ := exists_policy found
    have least := lower_le_held (e := e) z
    rw [Cycle.lower_eq original] at least
    exact least
  most z p found := by
    obtain ⟨q, original, rfl⟩ := exists_policy found
    have most := held_le_upper settled mem fits (Cycle.mem_zoneSets.mpr ⟨q, original⟩)
    rw [Cycle.upper_eq original] at most
    exact most
  floor d := (get_total settled mem fits d).le
  ceiling d := (get_total settled mem fits d).ge

end

/-! ## Their plans -/

theorem evaluate_eager_high : evaluate [eager] (reported 1) instances =
    .ok ⟨[], [⟨eager, .integer 1⟩]⟩ := by decide +kernel

theorem evaluate_eager_low : evaluate [eager] (reported (-1)) instances =
    .ok ⟨[⟨eager, .integer (-1)⟩], []⟩ := by decide +kernel

theorem evaluate_calm {value : Int64} (either : value = 1 ∨ value = -1) :
    evaluate [calm] (reported value) instances = .ok ⟨[], []⟩ := by
  rcases either with rfl | rfl
  · decide +kernel
  · decide +kernel

theorem onlyMoves {value : Int64} (either : value = 1 ∨ value = -1) (status : Cooldown.Status) :
    e.cycle.OnlyMoves status (reported value) instances e.mover := by
  intro o q found different planned
  obtain ⟨p, -, rfl⟩ := exists_policy found
  refine Cycle.plan_eq_of_steady (e := ⟨[], []⟩) ?_ (by simp)
  simp only [policy, if_neg different]
  exact evaluate_calm either

section
variable (settled : e.limits.Settled) (listed : e.mover ∈ e.limits.zoneSets)
  (mem : e.loaded ∈ e.limits.zoneSets) (fits : e.amount ≤ e.limits.reach e.dimension e.loaded)
include settled listed mem fits

/-- The mover grows into what the loaded zone set holds beyond the mover's maximum. -/
theorem not_keepsTotals_of_capped (different : e.loaded ≠ e.mover)
    (room : (e.limits.lower e.mover).get e.dimension < (e.limits.upper e.mover).get e.dimension)
    (beyond : (e.limits.upper e.mover).get e.dimension < e.amount) : ¬ e.cycle.KeepsTotals := by
  intro keeps
  have start : e.cycle.Settled := settled_cycle settled mem fits
  obtain ⟨p, found⟩ := Cycle.mem_zoneSets.mp listed
  rw [Cycle.lower_eq found, Cycle.upper_eq found] at room
  rw [Cycle.upper_eq found] at beyond
  obtain ⟨before, turn⟩ := Cycle.exists_turn (c := e.cycle) (z := e.mover) (p := e.policy e.mover p)
    (by rw [getElem?_policies, found, Option.map_some])
  have only := e.onlyMoves (.inl rfl) .ready
  have least : (e.policy e.mover p).current.get e.dimension = p.minCapacity.get e.dimension := by
    simp only [policy, held, if_neg different.symm, Cycle.lower_eq found]
  have capped : p.maxCapacity.get e.dimension <
      (e.cycle.lastEnforced.get e.loaded).get e.dimension := by
    rw [get_lastEnforced mem]
    exact beyond.trans_le (amount_le_held fits)
  have evaluated : evaluate (e.policy e.mover p).rules (reported 1) instances =
      .ok ⟨[], [⟨eager, .integer 1⟩]⟩ := by
    simp only [policy, if_true]
    exact evaluate_eager_high
  have gained := Cycle.gains_of_capped start only turn rfl evaluated rfl (by simp) (step_pos _)
    (least.trans_lt room) (by rwa [zoneSets_cycle]) different capped
  have total := Cycle.sumOver_plans_of_onlyMoves start only turn e.dimension
  have full : e.cycle.totalMax.get e.dimension ≤
      e.cycle.lastEnforced.sumOver e.cycle.zoneSets e.dimension := start.floor e.dimension
  have kept := (keeps (.new "" .default) (reported 1) instances 0 e.dimension).2
  rw [Engine.planned_enforceCycle, Engine.statusAt_new] at kept
  omega

/-- The loaded zone set is to move. It shrinks by what another holds less than its minimum. -/
theorem not_keepsTotals_of_raised (same : e.loaded = e.mover) {o : ZoneSet}
    (other : o ∈ e.limits.zoneSets) (different : o ≠ e.mover)
    (room : (e.limits.lower e.mover).get e.dimension < e.amount)
    (short : (e.limits.lower o).get e.dimension < (e.limits.lower e.mover).get e.dimension) :
    ¬ e.cycle.KeepsTotals := by
  intro keeps
  have start : e.cycle.Settled := settled_cycle settled mem fits
  obtain ⟨p, found⟩ := Cycle.mem_zoneSets.mp listed
  rw [Cycle.lower_eq found] at room short
  obtain ⟨before, turn⟩ := Cycle.exists_turn (c := e.cycle) (z := e.mover) (p := e.policy e.mover p)
    (by rw [getElem?_policies, found, Option.map_some])
  have only := e.onlyMoves (.inr rfl) .ready
  have more : p.minCapacity.get e.dimension < (e.policy e.mover p).current.get e.dimension := by
    simp only [policy, ← same]
    exact room.trans_le (amount_le_held fits)
  have raised : (e.cycle.lastEnforced.get o).get e.dimension < p.minCapacity.get e.dimension := by
    rw [get_lastEnforced other, held, same, if_neg different]
    exact short
  have evaluated : evaluate (e.policy e.mover p).rules (reported (-1)) instances =
      .ok ⟨[⟨eager, .integer (-1)⟩], []⟩ := by
    simp only [policy, if_true]
    exact evaluate_eager_low
  have lost := Cycle.loses_of_raised start only turn rfl evaluated (by simp) rfl (step_pos _) more
    (by rwa [zoneSets_cycle]) different raised
  have total := Cycle.sumOver_plans_of_onlyMoves start only turn e.dimension
  have spent : e.cycle.lastEnforced.sumOver e.cycle.zoneSets e.dimension ≤
      e.cycle.totalMin.get e.dimension := start.ceiling e.dimension
  have kept := (keeps (.new "" .default) (reported (-1)) instances 0 e.dimension).1
  rw [Engine.planned_enforceCycle, Engine.statusAt_new] at kept
  omega

end

end Edge

/-! ## When totals are kept -/

/-- The limits of zone sets keep the totals of all cycles that start in order exactly when they agree,
whatever the totals, the rules and steps, what the zone sets hold and what is reported. -/
theorem Cycle.keepsTotals_iff {c : Cycle} (settled : c.Settled) :
    (∀ c' : Cycle, c.SameLimits c' → c'.Settled → c'.KeepsTotals) ↔ c.LimitsAgree := by
  constructor
  · intro keeps
    constructor
    · intro z mem o other different d room
      refine Nat.le_of_not_lt fun beyond => ?_
      let e : Edge := ⟨c, z, o, d, (c.upper z).get d + 1⟩
      exact e.not_keepsTotals_of_capped settled mem other beyond different room (Nat.lt_succ_self _)
        (keeps e.cycle e.sameLimits (Edge.settled_cycle settled other beyond))
    · intro z mem o other different d above
      refine Nat.le_of_not_lt fun short => ?_
      let e : Edge := ⟨c, z, z, d, (c.lower z).get d + 1⟩
      exact e.not_keepsTotals_of_raised settled mem mem above rfl other different (Nat.lt_succ_self _)
        short (keeps e.cycle e.sameLimits (Edge.settled_cycle settled mem above))
  · intro agree c' same start
    exact (same.limitsAgree agree).keepsTotals start

namespace Cycle

/-- The load of a zone set. -/
def clashingLoad (z : ZoneSet) : StatisticId := ⟨"cpu", .avg, .ofMillis 300000, none, some z⟩

/-- The policy of a zone set that may hold from 10 of memory to some most. -/
def clashingPolicy (z : ZoneSet) (current most : Nat) : Policy where
  current := .single "memory" current
  rules := [⟨clashingLoad z, .integer 20, .integer 80⟩]
  increaseStep := .single "memory" 50
  decreaseStep := .single "memory" 50
  maxCapacity := .single "memory" most
  minCapacity := .single "memory" 10

/-- A small zone set. -/
def small : ZoneSet := .ofPieces ["a"] (by decide) (by decide)

/-- A large zone set. -/
def large : ZoneSet := .ofPieces ["b"] (by decide) (by decide)

/-- The small zone set may hold 100 and holds 50, the large one holds 1000, and the total is spent. -/
def clash : Cycle where
  policies := (Std.ExtTreeMap.insert ∅ small (clashingPolicy small 50 100)).insert large
    (clashingPolicy large 1000 1000)
  totalMax := .single "memory" 1050
  totalMin := .single "memory" 20
  lastEnforced := .ofList [(small, .single "memory" 50), (large, .single "memory" 1000)]

theorem clash_policies {z : ZoneSet} {p : Policy} (found : clash.policies[z]? = some p) :
    p.fault? = none ∧ p.current = clash.lastEnforced.get z ∧ p.minCapacity ≤ p.current ∧
      p.current ≤ p.maxCapacity := by
  have entries : clash.policies.toList =
      [(small, clashingPolicy small 50 100), (large, clashingPolicy large 1000 1000)] := by
    decide +kernel
  have listed := Std.ExtTreeMap.mem_toList_iff_getElem?_eq_some.mpr found
  rw [entries] at listed
  rcases List.mem_pair.mp listed with first | second
  · cases first
    decide +kernel
  · cases second
    decide +kernel

theorem clash_held (d : String) : clash.lastEnforced.sumOver clash.zoneSets d =
    (Capacity.single "memory" 1050).get d := by
  have zones : clash.zoneSets.toFinset = {small, large} := by decide +kernel
  have apart : small ≠ large := by decide
  have first : clash.lastEnforced.get small = .single "memory" 50 := by decide +kernel
  have second : clash.lastEnforced.get large = .single "memory" 1000 := by decide +kernel
  rw [Allocation.sumOver, zones, Finset.sum_pair apart, first, second]
  simp only [Capacity.get_single]
  split
  · decide
  · rfl

theorem settled_clash : clash.Settled where
  sound _ _ found := (clash_policies found).1
  grounded _ _ found := (clash_policies found).2.1
  least _ _ found := (clash_policies found).2.2.1
  most _ _ found := (clash_policies found).2.2.2
  floor d := by
    have less : clash.totalMin ≤ clash.totalMax := by decide +kernel
    exact (less d).trans_eq (clash_held d).symm
  ceiling d := (clash_held d).le

/-- Something can exceed the maximum of the small zone set, so its limits do not keep the totals. -/
theorem keepsTotals_iff_clash :
    clash.Settled ∧ ¬ ∀ c' : Cycle, clash.SameLimits c' → c'.Settled → c'.KeepsTotals := by
  refine ⟨settled_clash, fun keeps => ?_⟩
  have agree := (keepsTotals_iff settled_clash).mp keeps
  have below := agree.most small (by decide +kernel) large (by decide +kernel) (by decide) "memory"
    (by decide +kernel)
  exact absurd below (by decide +kernel)

/-- The small zone set is busy, the large one is not. -/
def clashingLoads : Snapshot := .ofList [(clashingLoad small, ⟨.integer 95, .ofList ["vm-1"]⟩),
  (clashingLoad large, ⟨.integer 50, .ofList ["vm-2"]⟩)]

/-- The small zone set grows to its maximum, as if the large one held no more than that. -/
theorem clash_exceeds : clash.Settled ∧ clash.totalMax.get "memory" = 1050 ∧
    ((Engine.new "default/api" ⟨.ofMillis 0, .ofMillis 0⟩).enforceCycle clash clashingLoads
      (.ofList [("vm-1", "a"), ("vm-2", "b")]) 0).2.planned.sumOver clash.zoneSets "memory" = 1100 :=
  ⟨settled_clash, by decide +kernel, by decide +kernel⟩

end Cycle

end Autoscaler
