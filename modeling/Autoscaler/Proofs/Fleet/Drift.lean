import Autoscaler.Proofs.Enforcement.Direction
import Autoscaler.Proofs.Fleet.Bookkeeping
import Autoscaler.Proofs.Fleet.Totals

/-!
# Drift

While no rule of a workload is below its low threshold, what its zone sets hold only grows; while none
is above its high threshold, it only shrinks. Every target that is provisioned moves it, so that the
total limits how many of them there can be, however long the scheduler runs (`drifts_one_way`).
-/

namespace Autoscaler

/-! ## Lists that advance -/

/-- Each item stays as the one before or is moved on from it. So many are moved. -/
inductive Advances {α : Type} (Moves : α → α → Prop) : List α → Nat → Prop
  | last (a : α) : Advances Moves [a] 0
  | stay {a : α} {later : List α} {k : Nat} :
    Advances Moves (a :: later) k → Advances Moves (a :: a :: later) k
  | move {a b : α} {later : List α} {k : Nat} :
    Moves a b → Advances Moves (b :: later) k → Advances Moves (a :: b :: later) (k + 1)

namespace Advances

variable {α : Type} {Moves : α → α → Prop} {items : List α} {k : Nat}

/-- What relates an item to itself, and an item to whatever it is moved to, relates each to all later
ones. -/
theorem pairwise {R : α → α → Prop} (advances : Advances Moves items k) (refl : ∀ a, R a a)
    (trans : ∀ a b c, R a b → R b c → R a c) (moved : ∀ a b, Moves a b → R a b) :
    items.Pairwise R := by
  induction advances with
  | last a => exact List.pairwise_singleton R a
  | @stay a later k _ ih =>
    obtain ⟨first, -⟩ := List.pairwise_cons.mp ih
    refine List.pairwise_cons.mpr ⟨fun b mem => ?_, ih⟩
    rcases List.mem_cons.mp mem with rfl | mem
    · exact refl b
    · exact first b mem
  | @move a b later k moves _ ih =>
    obtain ⟨first, -⟩ := List.pairwise_cons.mp ih
    refine List.pairwise_cons.mpr ⟨fun c mem => ?_, ih⟩
    rcases List.mem_cons.mp mem with rfl | mem
    · exact moved a c moves
    · exact trans a b c (moved a b moves) (first c mem)

/-- A measure that every move increases leaves room for as many moves as it has grown in all. -/
theorem add_le (advances : Advances Moves items k) (measure : α → Nat)
    (gains : ∀ a ∈ items, ∀ b ∈ items, Moves a b → measure a < measure b) {first last : α}
    (starts : items.head? = some first) (ends : items.getLast? = some last) :
    measure first + k ≤ measure last := by
  induction advances generalizing first with
  | last a =>
    cases starts
    cases ends
    exact Nat.le_refl _
  | @stay a later k _ ih =>
    cases starts
    refine ih (fun a mem b listed => ?_) rfl (by simpa using ends)
    exact gains a (List.mem_cons_of_mem _ mem) b (List.mem_cons_of_mem _ listed)
  | @move a b later k moves _ ih =>
    cases starts
    have more := gains a (by simp) b (by simp) moves
    have rest : measure b + k ≤ measure last := by
      refine ih (fun a mem b listed => ?_) rfl (by simpa using ends)
      exact gains a (List.mem_cons_of_mem _ mem) b (List.mem_cons_of_mem _ listed)
    omega

end Advances

section
variable {α : Type} {R : α → α → Prop} {items : List α} (ordered : items.Pairwise R)
  (refl : ∀ a, R a a) {a : α} (mem : a ∈ items)
include ordered refl mem

theorem rel_of_head? {first : α} (starts : items.head? = some first) : R first a := by
  obtain ⟨rest, rfl⟩ := List.head?_eq_some_iff.mp starts
  rcases List.mem_cons.mp mem with rfl | mem
  · exact refl a
  · exact (List.pairwise_cons.mp ordered).1 a mem

theorem rel_of_getLast? {last : α} (ends : items.getLast? = some last) : R a last := by
  obtain ⟨rest, rfl⟩ := List.getLast?_eq_some_iff.mp ends
  rcases List.mem_append.mp mem with mem | mem
  · exact (List.pairwise_append.mp ordered).2.2 a mem last List.mem_cons_self
  · rw [List.mem_singleton.mp mem]
    exact refl last

end

/-! ## Allocations that grow -/

namespace Allocation

/-- No zone set holds less than in the other allocation. -/
def Within (a b : Allocation) : Prop := ∀ z, a.get z ≤ b.get z

/-- No zone set holds less than before, and one of the listed ones holds something else. -/
def Grows (zones : List ZoneSet) (a b : Allocation) : Prop :=
  a.Within b ∧ ∃ z ∈ zones, a.get z ≠ b.get z

variable {zones : List ZoneSet} {a b : Allocation} {z : ZoneSet} {c limit : Capacity}

theorem within_refl (a : Allocation) : a.Within a := fun _ _ => Nat.le_refl _

theorem Within.trans {other : Allocation} (first : a.Within b) (second : b.Within other) :
    a.Within other := fun z d => (first z d).trans (second z d)

/-- A zone set that is set relates to what it held as its new capacity does, the others as to
themselves. -/
theorem get_set_rel {R : Capacity → Capacity → Prop} (refl : ∀ c, R c c) (changed : R (a.get z) c)
    (o : ZoneSet) : R (a.get o) ((a.set z c).get o) := by
  rw [get_set]
  split
  · rename_i same
    exact same ▸ changed
  · exact refl _

theorem within_set (le : a.get z ≤ c) : a.Within (a.set z c) :=
  get_set_rel (fun _ _ => Nat.le_refl _) le

theorem set_within (le : c ≤ a.get z) : (a.set z c).Within a :=
  get_set_rel (R := fun before after => after ≤ before) (fun _ _ => Nat.le_refl _) le

theorem grows_set (mem : z ∈ zones) (le : a.get z ≤ c) (different : c ≠ a.get z) :
    a.Grows zones (a.set z c) := by
  refine ⟨within_set le, z, mem, ?_⟩
  rw [get_set, if_pos rfl]
  exact different.symm

theorem set_grows (mem : z ∈ zones) (le : c ≤ a.get z) (different : c ≠ a.get z) :
    (a.set z c).Grows zones a := by
  refine ⟨set_within le, z, mem, ?_⟩
  rw [get_set, if_pos rfl]
  exact different

/-- The sum over all dimensions of a capacity and all listed zone sets. -/
def weight (limit : Capacity) (zones : List ZoneSet) (a : Allocation) : Nat :=
  ∑ d ∈ limit.dimensions.toFinset, a.sumOver zones d

theorem get_le_sumOver (a : Allocation) (mem : z ∈ zones) (d : String) :
    (a.get z).get d ≤ a.sumOver zones d :=
  Finset.single_le_sum (f := fun z => (a.get z).get d) (fun _ _ => Nat.zero_le _)
    (List.mem_toFinset.mpr mem)

theorem Within.sumOver_le (within : a.Within b) (zones : List ZoneSet) (d : String) :
    a.sumOver zones d ≤ b.sumOver zones d :=
  Finset.sum_le_sum fun z _ => within z d

theorem Within.weight_le (within : a.Within b) (limit : Capacity) (zones : List ZoneSet) :
    weight limit zones a ≤ weight limit zones b :=
  Finset.sum_le_sum fun d _ => within.sumOver_le zones d

/-- What grows below a capacity gains weight in its dimensions. -/
theorem Grows.weight_lt (grows : a.Grows zones b) (below : ∀ z ∈ zones, b.get z ≤ limit) :
    weight limit zones a < weight limit zones b := by
  obtain ⟨within, z, mem, different⟩ := grows
  obtain ⟨d, less⟩ : ∃ d, (a.get z).get d < (b.get z).get d := by
    by_contra none
    refine different (Capacity.ext fun d => ?_)
    have most := within z d
    have least := not_exists.mp none d
    omega
  have listed : d ∈ limit.dimensions.toFinset := by
    have room := below z mem d
    rw [List.mem_toFinset, Capacity.mem_dimensions]
    omega
  refine Finset.sum_lt_sum (fun d _ => within.sumOver_le zones d) ⟨d, listed, ?_⟩
  exact Finset.sum_lt_sum (fun o _ => within o d) ⟨z, List.mem_toFinset.mpr mem, less⟩

section
variable {items : List Allocation} {first last : Allocation} {k : Nat}
  (starts : items.head? = some first) (ends : items.getLast? = some last)
include starts ends

/-- Allocations that only grow, up to one below a capacity, gain weight with every move. -/
theorem ascending (advances : Advances (Grows zones) items k)
    (below : ∀ z ∈ zones, last.get z ≤ limit) :
    items.Pairwise Within ∧ weight limit zones first + k ≤ weight limit zones last := by
  have ordered := advances.pairwise within_refl (fun _ _ _ => Within.trans) fun _ _ grows => grows.1
  refine ⟨ordered, advances.add_le (weight limit zones) (fun a _ b mem grows => ?_) starts ends⟩
  refine grows.weight_lt fun z listed d => ?_
  exact (rel_of_getLast? ordered within_refl mem ends z d).trans (below z listed d)

/-- Allocations that only shrink, from one below a capacity on, lose weight with every move. -/
theorem descending (advances : Advances (fun a b => b.Grows zones a) items k)
    (below : ∀ z ∈ zones, first.get z ≤ limit) :
    items.Pairwise (fun a b => b.Within a) ∧
      weight limit zones last + k ≤ weight limit zones first := by
  have ordered := advances.pairwise (R := fun a b => b.Within a) within_refl
    (fun _ _ _ before after => after.trans before) fun _ _ grows => grows.1
  refine ⟨ordered, ?_⟩
  have within : ∀ a ∈ items, a.Within first := by
    intro a mem
    exact rel_of_head? ordered within_refl mem starts
  -- The measure that grows is what has been lost since the first allocation.
  have counted := advances.add_le (fun a => weight limit zones first - weight limit zones a)
    (fun a mem b _ grows => ?_) starts ends
  · have least := (within last (List.mem_of_getLast? ends)).weight_le limit zones
    omega
  · have less := grows.weight_lt fun z listed d => (within a mem z d).trans (below z listed d)
    have most := (within a mem).weight_le limit zones
    omega

end

end Allocation

/-! ## What a workload is seen to do -/

/-- A rule of the workload can be assessed in a tick, and its value stands there. -/
def Surroundings.Shows (world : Surroundings) (w : Workload) (standing : Standing) : Prop :=
  ∃ statistics roster, world.statistics w.id = some statistics ∧ world.roster w.id = some roster ∧
    ∃ r ∈ w.policy.rules, r.Stands statistics roster standing

namespace Scheduler

/-- What a workload holds before each of the calls. -/
def heldAlong (s : Scheduler) (id : String) : List Call → List Allocation
  | [] => []
  | call :: rest => s.held id :: (s.settle call).heldAlong id rest

/-- What a workload holds in the course of ticks: before each of their calls, and in the end. -/
def heldThroughout (s : Scheduler) (id : String) : List Surroundings → List Allocation
  | [] => [s.held id]
  | world :: rest =>
    ({ s with registry := s.enginesAfter world } : Scheduler).heldAlong id (s.tick world).2.1 ++
      (s.tick world).2.2.heldThroughout id rest

/-- How many targets have been provisioned for a workload. -/
def provisioned (id : String) (ticks : List Tick) : Nat :=
  (ticks.flatMap Tick.calls).countP fun call => call.workload = id ∧ call.succeeded

variable {s : Scheduler} {id : String} {w : Workload} {world : Surroundings}

theorem held_settle_own {call : Call} (own : call.workload = id) (succeeded : call.succeeded = true) :
    (s.settle call).held id = (s.held id).set call.zoneSet call.target := by
  subst own
  rw [settle, if_pos succeeded, held, lastEnforced?_setLastEnforced, if_pos rfl, Option.getD_some]

theorem held_settle_other {call : Call} (idle : ¬ (call.workload = id ∧ call.succeeded = true)) :
    (s.settle call).held id = s.held id := by
  rw [settle]
  split
  · rename_i succeeded
    have different : call.workload ≠ id := fun own => idle ⟨own, succeeded⟩
    rw [held, lastEnforced?_setLastEnforced, if_neg different, held]
  · rfl

theorem head?_heldAlong {calls : List Call} {later : List Allocation}
    (meets : later.head? = some ((calls.foldl settle s).held id)) :
    (s.heldAlong id calls ++ later).head? = some (s.held id) := by
  cases calls with
  | nil => exact meets
  | cons call rest => rfl

theorem head?_heldThroughout (s : Scheduler) (id : String) (worlds : List Surroundings) :
    (s.heldThroughout id worlds).head? = some (s.held id) := by
  induction worlds generalizing s with
  | nil => rfl
  | cons world rest ih => exact head?_heldAlong (ih (s.tick world).2.2)

theorem getLast?_heldThroughout (s : Scheduler) (id : String) (worlds : List Surroundings) :
    (s.heldThroughout id worlds).getLast? = some ((s.run worlds).2.held id) := by
  induction worlds generalizing s with
  | nil => rfl
  | cons world rest ih =>
    rw [heldThroughout, List.getLast?_append, ih, Option.some_or]
    rfl

/-! ## One tick -/

section
variable {Moves : Allocation → Allocation → Prop}

/-- The calls of a tick advance what the workload holds when each of its targets would move what was
held before the tick. -/
theorem advances_along {start : Allocation} {calls : List Call} {later : List Allocation} {k : Nat}
    (apart : calls.Pairwise fun first second =>
      ¬ (first.workload = second.workload ∧ first.zoneSet = second.zoneSet))
    (unchanged : ∀ call ∈ calls, call.workload = id →
      (s.held id).get call.zoneSet = start.get call.zoneSet)
    (moves : ∀ call ∈ calls, call.workload = id → ∀ a : Allocation,
      a.get call.zoneSet = start.get call.zoneSet → Moves a (a.set call.zoneSet call.target))
    (meets : later.head? = some ((calls.foldl settle s).held id)) (after : Advances Moves later k) :
    Advances Moves (s.heldAlong id calls ++ later)
      ((calls.countP fun call => call.workload = id ∧ call.succeeded) + k) := by
  induction calls generalizing s with
  | nil => simpa [heldAlong] using after
  | cons call rest ih =>
    obtain ⟨first, apart⟩ := List.pairwise_cons.mp apart
    have next := ih apart (s := s.settle call) ?_ (fun other mem => moves other (by simp [mem])) meets
    · have head : ((s.settle call).heldAlong id rest ++ later).head? = some ((s.settle call).held id) :=
        head?_heldAlong meets
      obtain ⟨items, split⟩ := List.head?_eq_some_iff.mp head
      rw [split] at next
      rw [heldAlong, List.cons_append, split, List.countP_cons]
      by_cases granted : call.workload = id ∧ call.succeeded = true
      · have moved := moves call List.mem_cons_self granted.1 (s.held id)
          (unchanged call List.mem_cons_self granted.1)
        rw [← held_settle_own granted.1 granted.2] at moved
        simpa [granted, Nat.add_right_comm] using next.move moved
      · rw [held_settle_other granted] at next ⊢
        simpa [granted] using next.stay
    · intro other mem own
      rw [← unchanged other (by simp [mem]) own]
      rcases held_settle s call id other.zoneSet with same | ⟨settled, zone, -⟩
      · exact same
      · exact absurd ⟨settled.trans own.symm, zone⟩ (first other mem)

/-- A run advances what a workload holds when each target would move what is held before its tick. -/
theorem advances_run {P : Allocation → Prop} (keeps : w.Keeps P) {worlds : List Surroundings}
    (moves : ∀ (t : Scheduler) (world : Surroundings), world ∈ worlds →
      t.workloads[w.id]? = some w → P (t.held w.id) → ∀ call ∈ (t.tick world).2.1,
      call.workload = w.id → ∀ a : Allocation,
      a.get call.zoneSet = (t.held w.id).get call.zoneSet → Moves a (a.set call.zoneSet call.target))
    (registered : s.workloads[w.id]? = some w) (holds : P (s.held w.id)) :
    Advances Moves (s.heldThroughout w.id worlds) (provisioned w.id (s.run worlds).1) := by
  induction worlds generalizing s with
  | nil => exact .last (s.held w.id)
  | cons world rest ih =>
    have later := ih (fun t other mem => moves t other (List.mem_cons_of_mem _ mem))
      (s := (s.tick world).2.2) (by rw [workloads_tick, registered])
      (held_tick keeps registered holds world)
    have along := advances_along (s := { s with registry := s.enginesAfter world })
      (distinct_calls s world) (fun _ _ _ => rfl)
      (moves s world List.mem_cons_self registered holds)
      (head?_heldThroughout (s.tick world).2.2 w.id rest) later
    have counted : provisioned w.id (s.run (world :: rest)).1 =
        ((s.tick world).2.1.countP fun call => call.workload = w.id ∧ call.succeeded) +
          provisioned w.id ((s.tick world).2.2.run rest).1 := by
      rw [provisioned, provisioned, ← List.countP_append]
      rfl
    rw [counted]
    exact along

end

/-- A call for a workload comes from the turn of its zone set, in which no rule stands where none has
been shown to stand. -/
theorem exists_change_of_call {call : Call} (registered : s.workloads[w.id]? = some w)
    (made : call ∈ (s.tick world).2.1) (own : call.workload = w.id) :
    call.zoneSet ∈ w.zoneSets ∧ ∃ status statistics roster before p,
      p.current = (s.held w.id).get call.zoneSet ∧
      (w.cycle (s.held w.id)).Turn before call.zoneSet p ∧
      ((w.cycle (s.held w.id)).verdict status statistics roster
        ((w.cycle (s.held w.id)).plans status statistics roster before) call.zoneSet p).change? =
          some call.target ∧
      ∀ standing, ¬ world.Shows w standing → ∀ r ∈ p.rules, ¬ r.Stands statistics roster standing := by
  obtain ⟨v, reported, applied⟩ := exists_outcome_of_mem_calls made
  rw [own] at reported
  obtain ⟨other, verdicts, after, found, ran, -⟩ := mem_outcomes.mp reported
  cases Option.some.inj (registered.symm.trans found)
  obtain ⟨status, statistics, roster, fetched, known, turns⟩ := exists_turn_of_run? registered ran
  obtain ⟨before, p, turn, rfl⟩ := turns call.zoneSet v reported
  obtain ⟨mem, rfl⟩ := Workload.exists_zoneSet turn.policy_eq
  refine ⟨mem, status, statistics, roster, before, _, rfl, turn, applied, ?_⟩
  intro standing unseen r listed stands
  exact unseen ⟨statistics, roster, fetched, known, r, listed, stands⟩

/-- While no rule is below its low threshold, every target of a workload under its ceiling is more than
what the zone set holds. -/
theorem grows_of_call {call : Call} (registered : s.workloads[w.id]? = some w)
    (under : w.UnderCeiling (s.held w.id)) (unseen : ¬ world.Shows w .below)
    (made : call ∈ (s.tick world).2.1) (own : call.workload = w.id) {a : Allocation}
    (same : a.get call.zoneSet = (s.held w.id).get call.zoneSet) :
    a.Grows w.zoneSets (a.set call.zoneSet call.target) := by
  obtain ⟨mem, status, statistics, roster, before, p, current, turn, applied, quiet⟩ :=
    exists_change_of_call registered made own
  have le := Cycle.current_le_of_change? applied (quiet .below unseen) (under.current_le turn)
  have different := (Cycle.evaluation_of_change? applied).1
  rw [current, ← same] at le different
  exact Allocation.grows_set mem le different

/-- While no rule is above its high threshold, every target of a workload over its floor is less than
what the zone set holds. -/
theorem shrinks_of_call {call : Call} (registered : s.workloads[w.id]? = some w)
    (above : w.OverFloor (s.held w.id)) (unseen : ¬ world.Shows w .above)
    (made : call ∈ (s.tick world).2.1) (own : call.workload = w.id) {a : Allocation}
    (same : a.get call.zoneSet = (s.held w.id).get call.zoneSet) :
    (a.set call.zoneSet call.target).Grows w.zoneSets a := by
  obtain ⟨mem, status, statistics, roster, before, p, current, turn, applied, quiet⟩ :=
    exists_change_of_call registered made own
  have le := Cycle.le_current_of_change? applied (quiet .above unseen) (above.le_current turn)
  have different := (Cycle.evaluation_of_change? applied).1
  rw [current, ← same] at le different
  exact Allocation.set_grows mem le different

/-! ## Whole runs -/

section
variable {before : Scheduler} (added : before.add w = .ok s) {worlds : List Surroundings}
include added

theorem grows_only (each : w.policy.current ≤ w.policy.maxCapacity)
    (total : ∀ d, w.initial.sumOver w.zoneSets d ≤ w.totalMax.get d)
    (unseen : ∀ world ∈ worlds, ¬ world.Shows w .below) :
    (s.heldThroughout w.id worlds).Pairwise (fun earlier later => earlier.Within later) ∧
      provisioned w.id (s.run worlds).1 ≤
        ∑ d ∈ w.totalMax.dimensions.toFinset, (w.totalMax.get d - w.initial.sumOver w.zoneSets d) := by
  have registered := getElem?_workloads_add added
  have start : w.UnderCeiling (s.held w.id) := by
    rw [held_add added]
    exact Workload.underCeiling_initial each total
  have keeps : w.Keeps w.UnderCeiling := fun _ _ _ _ _ under settles => under.settled settles
  have advances : Advances (Allocation.Grows w.zoneSets) (s.heldThroughout w.id worlds)
      (provisioned w.id (s.run worlds).1) := by
    refine advances_run keeps (fun t world mem registered under call made own a same => ?_)
      registered start
    exact grows_of_call registered under (unseen world mem) made own same
  have final := held_run keeps registered start worlds
  have below : ∀ z ∈ w.zoneSets, ((s.run worlds).2.held w.id).get z ≤ w.totalMax := by
    intro z listed d
    exact (Allocation.get_le_sumOver _ listed d).trans (final.total d)
  obtain ⟨ordered, counted⟩ := Allocation.ascending (head?_heldThroughout s w.id worlds)
    (getLast?_heldThroughout s w.id worlds) advances below
  refine ⟨ordered, ?_⟩
  rw [held_add added] at counted
  have most : Allocation.weight w.totalMax w.zoneSets ((s.run worlds).2.held w.id) ≤
      ∑ d ∈ w.totalMax.dimensions.toFinset, w.totalMax.get d :=
    Finset.sum_le_sum fun d _ => final.total d
  rw [Finset.sum_tsub_distrib _ fun d _ => total d]
  exact Nat.le_sub_of_add_le' (counted.trans most)

theorem shrinks_only (each : w.policy.minCapacity ≤ w.policy.current)
    (total : ∀ d, w.totalMin.get d ≤ w.initial.sumOver w.zoneSets d)
    (unseen : ∀ world ∈ worlds, ¬ world.Shows w .above) :
    (s.heldThroughout w.id worlds).Pairwise (fun earlier later => later.Within earlier) ∧
      provisioned w.id (s.run worlds).1 ≤ ∑ d ∈ w.policy.current.dimensions.toFinset,
        (w.initial.sumOver w.zoneSets d - w.totalMin.get d) := by
  have registered := getElem?_workloads_add added
  have start : w.OverFloor (s.held w.id) := by
    rw [held_add added]
    exact Workload.overFloor_initial each total
  have keeps : w.Keeps w.OverFloor := fun _ _ _ _ _ above settles => above.settled settles
  have advances : Advances (fun a b => b.Grows w.zoneSets a) (s.heldThroughout w.id worlds)
      (provisioned w.id (s.run worlds).1) := by
    refine advances_run keeps (fun t world mem registered above call made own a same => ?_)
      registered start
    exact shrinks_of_call registered above (unseen world mem) made own same
  have final := held_run keeps registered start worlds
  have below : ∀ z ∈ w.zoneSets, (s.held w.id).get z ≤ w.policy.current := by
    intro z listed d
    rw [held_add added, Workload.get_initial listed]
  obtain ⟨ordered, counted⟩ := Allocation.descending (head?_heldThroughout s w.id worlds)
    (getLast?_heldThroughout s w.id worlds) advances below
  refine ⟨ordered, ?_⟩
  rw [held_add added] at counted
  have least : ∑ d ∈ w.policy.current.dimensions.toFinset, w.totalMin.get d ≤
      Allocation.weight w.policy.current w.zoneSets ((s.run worlds).2.held w.id) :=
    Finset.sum_le_sum fun d _ => final.total d
  rw [Finset.sum_tsub_distrib _ fun d _ => total d]
  exact Nat.le_sub_of_add_le' ((Nat.add_le_add_right least _).trans counted)

end

/-- Once added under its ceiling, a workload that shows no rule below its low threshold only grows, and
one that is over its floor and shows none above its high threshold only shrinks. There are no more
provisioned targets than the amounts, summed over all dimensions, that are left between what it starts
with and the total. A dimension that the sum does not name has nothing left. -/
theorem drifts_one_way {before s : Scheduler} {w : Workload} (added : before.add w = .ok s)
    (worlds : List Surroundings) :
    (w.policy.current ≤ w.policy.maxCapacity →
      (∀ d, w.initial.sumOver w.zoneSets d ≤ w.totalMax.get d) →
      (∀ world ∈ worlds, ¬ world.Shows w .below) →
      (s.heldThroughout w.id worlds).Pairwise (fun earlier later => earlier.Within later) ∧
      provisioned w.id (s.run worlds).1 ≤
        ∑ d ∈ w.totalMax.dimensions.toFinset, (w.totalMax.get d - w.initial.sumOver w.zoneSets d)) ∧
    (w.policy.minCapacity ≤ w.policy.current →
      (∀ d, w.totalMin.get d ≤ w.initial.sumOver w.zoneSets d) →
      (∀ world ∈ worlds, ¬ world.Shows w .above) →
      (s.heldThroughout w.id worlds).Pairwise (fun earlier later => later.Within earlier) ∧
      provisioned w.id (s.run worlds).1 ≤ ∑ d ∈ w.policy.current.dimensions.toFinset,
        (w.initial.sumOver w.zoneSets d - w.totalMin.get d)) :=
  ⟨grows_only added, shrinks_only added⟩

/-- A reported value shows where the only rule of the pair stands, and nothing else. -/
theorem not_shows_reporting {value : Int64} {other : Standing} (standing : Standing)
    (stands : pair.policy.rules.map (fun r => (r.assess
      (.ofList [(⟨"cpu", .avg, .ofMillis 300000, none, none⟩, ⟨.integer value, .ofList ["vm"]⟩)])
      (.ofList [("vm", "east")])).map Prod.snd) = [.ok standing])
    (different : standing ≠ other) : ¬ (reporting value).Shows pair other := by
  rintro ⟨statistics, roster, fetched, known, r, listed, b, assessed⟩
  cases fetched
  cases known
  have shown : (Except.ok other : Except RuleFault Standing) ∈ [.ok standing] := by
    rw [← stands]
    exact List.mem_map.mpr ⟨r, listed, congrArg (Except.map Prod.snd) assessed⟩
  exact different (Except.ok.inj (List.mem_singleton.mp shown)).symm

/-- The pair grows once, or shrinks once, since targets of the first zone set are not provisioned. -/
theorem drifts_one_way_pair :
    let busy := [reporting 95, reporting 50]
    let idle := [reporting 5, reporting 50]
    new.add pair = .ok withPair ∧
      (∀ world ∈ busy, ¬ world.Shows pair .below) ∧ (∀ world ∈ idle, ¬ world.Shows pair .above) ∧
      (withPair.heldThroughout "pair" busy).Pairwise (fun earlier later => earlier.Within later) ∧
      provisioned "pair" (withPair.run busy).1 ≤ ∑ d ∈ pair.totalMax.dimensions.toFinset,
        (pair.totalMax.get d - pair.initial.sumOver pair.zoneSets d) ∧
      provisioned "pair" (withPair.run busy).1 = 1 ∧
      (withPair.heldThroughout "pair" idle).Pairwise (fun earlier later => later.Within earlier) ∧
      provisioned "pair" (withPair.run idle).1 ≤ ∑ d ∈ pair.policy.current.dimensions.toFinset,
        (pair.initial.sumOver pair.zoneSets d - pair.totalMin.get d) ∧
      provisioned "pair" (withPair.run idle).1 = 1 := by
  intro busy idle
  have added : new.add pair = .ok withPair := by decide +kernel
  have notBelow : ∀ world ∈ busy, ¬ world.Shows pair .below := by
    have high : ¬ (reporting 95).Shows pair .below := not_shows_reporting .above rfl (by decide)
    have steady : ¬ (reporting 50).Shows pair .below := not_shows_reporting .within rfl (by decide)
    simp [busy, high, steady]
  have notAbove : ∀ world ∈ idle, ¬ world.Shows pair .above := by
    have low : ¬ (reporting 5).Shows pair .above := not_shows_reporting .below rfl (by decide)
    have steady : ¬ (reporting 50).Shows pair .above := not_shows_reporting .within rfl (by decide)
    simp [idle, low, steady]
  obtain ⟨grown, most⟩ :=
    (drifts_one_way added busy).1 (by decide) (fun d => (pair_total d).2) notBelow
  obtain ⟨shrunk, least⟩ :=
    (drifts_one_way added idle).2 (by decide) (fun d => (pair_total d).1) notAbove
  exact ⟨added, notBelow, notAbove, grown, most, by decide +kernel, shrunk, least, by decide +kernel⟩

end Scheduler

end Autoscaler
