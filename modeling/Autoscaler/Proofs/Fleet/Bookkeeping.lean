import Autoscaler.Proofs.Fleet.Lifecycle
import Autoscaler.Proofs.Fleet.Turns

/-!
# Bookkeeping

What a tick reports, asks for and notes fits together (`keepsBooks`): every zone set that is due has one
outcome, in ascending order; every applied change starts from what is held, and its target is handed
to the provisioner once; and what is provisioned, and nothing else, is noted. What a zone set holds is
therefore always what has been noted for it last (`get?_held_performAll`).
-/

namespace Autoscaler

/-- An outcome comes before another in the order of workloads and then of zone sets. -/
def Outcome.Before (first second : Outcome) : Prop :=
  compare first.workload second.workload = .lt ∨
    first.workload = second.workload ∧ compare first.zoneSet second.zoneSet = .lt

theorem Outcome.Before.apart {first second : Outcome} (earlier : first.Before second)
    (own : first.workload = second.workload) : first.zoneSet ≠ second.zoneSet := by
  intro same
  rcases earlier with below | ⟨-, below⟩
  · simp [own] at below
  · simp [same] at below

/-- What an applied change asks for: that a zone set of a workload be given its target. -/
def Outcome.request? (o : Outcome) : Option (String × ZoneSet × Capacity) :=
  match o.verdict with
  | .ok (.applied _ target _) => some (o.workload, o.zoneSet, target)
  | _ => none

/-- What the provisioner is asked for in a call. -/
def Call.request (call : Call) : String × ZoneSet × Capacity :=
  (call.workload, call.zoneSet, call.target)

/-! ## What is noted for a zone set -/

/-- What a call notes for a zone set: its target, if it succeeded. -/
def Call.notes (id : String) (z : ZoneSet) (call : Call) : List (Option Capacity) :=
  if call.succeeded ∧ call.workload = id ∧ call.zoneSet = z then [some call.target] else []

/-- What an event notes for a zone set of a workload: what it starts with when the workload is added,
nothing when it is removed, what overrides it, and what a tick provisions. -/
def Event.notes (id : String) (z : ZoneSet) (e : Event) : List (Option Capacity) :=
  match e.operation, e.response with
  | .add w, .added (.ok _) =>
    if w.id = id then [if z ∈ w.zoneSets then some w.policy.current else none] else []
  | .remove other, .removed (.ok _) => if other = id then [none] else []
  | .setLastEnforced other o c, .noted => if other = id ∧ o = z then [some c] else []
  | .tick _, .ticked tick => tick.calls.flatMap (Call.notes id z)
  | _, _ => []

namespace Scheduler

variable {s : Scheduler} {world : Surroundings} {id : String} {z : ZoneSet}

private theorem getLastD_append {α : Type} (first second : List α) (a : α) :
    (first ++ second).getLastD a = second.getLastD (first.getLastD a) := by
  rw [List.getLastD_eq_getLast?, List.getLast?_append, Option.getD_or, List.getLastD_eq_getLast?,
    List.getLastD_eq_getLast?]

theorem held_share (s : Scheduler) (id : String) : (s.share id).held = s.held id := rfl

theorem get?_held_setLastEnforced (s : Scheduler) (other : String) (o : ZoneSet) (c : Capacity) :
    ((s.setLastEnforced other o c).held id).get? z =
      if other = id ∧ o = z then some c else (s.held id).get? z := by
  rw [held, lastEnforced?_setLastEnforced]
  by_cases own : other = id
  · simp [own]
  · simp [own, held]

theorem get?_held_settle (s : Scheduler) (call : Call) :
    ((s.settle call).held id).get? z = (call.notes id z).getLastD ((s.held id).get? z) := by
  rw [settle, Call.notes]
  by_cases succeeded : call.succeeded = true
  · rw [if_pos succeeded, get?_held_setLastEnforced]
    by_cases own : call.workload = id ∧ call.zoneSet = z
    · rw [if_pos own, if_pos ⟨succeeded, own⟩, List.getLastD_cons, List.getLastD_nil]
    · rw [if_neg own, if_neg fun noted => own noted.2, List.getLastD_nil]
  · rw [if_neg succeeded, if_neg fun noted => succeeded noted.1, List.getLastD_nil]

theorem get?_held_foldl_settle (calls : List Call) (s : Scheduler) :
    ((calls.foldl settle s).held id).get? z =
      (calls.flatMap (Call.notes id z)).getLastD ((s.held id).get? z) := by
  induction calls generalizing s with
  | nil => rfl
  | cons call rest ih =>
    rw [List.foldl_cons, ih, get?_held_settle, List.flatMap_cons, getLastD_append]

theorem get?_held_tick (s : Scheduler) (world : Surroundings) :
    ((s.tick world).2.2.held id).get? z =
      ((s.tick world).2.1.flatMap (Call.notes id z)).getLastD ((s.held id).get? z) :=
  get?_held_foldl_settle _ _

theorem get?_held_perform (s : Scheduler) (operation : Operation) :
    ((s.perform operation).2.held id).get? z =
      (Event.notes id z ⟨operation, (s.perform operation).1⟩).getLastD ((s.held id).get? z) := by
  cases operation with
  | add w =>
    rw [perform, add_eq]
    by_cases live : (s.share w.id).engine.isSome = true
    · simp [live, Event.notes]
    · simp only [live, Bool.false_eq_true, if_false, Event.notes, ← held_share, share_added]
      by_cases own : w.id = id
      · simp [own, Share.fresh, Share.held, Workload.get?_initial]
      · simp [own]
  | remove other =>
    rw [perform, remove_eq]
    cases (s.share other).engine with
    | none => rfl
    | some engine =>
      cases (s.share other).workload with
      | none => rfl
      | some w =>
        simp only [Event.notes, ← held_share, share_removed]
        by_cases own : other = id
        · simp [own, Share.empty, Share.held]
        · simp [own]
  | setLastEnforced other o c =>
    simp only [perform, Event.notes, get?_held_setLastEnforced]
    by_cases own : other = id ∧ o = z
    · rw [if_pos own, if_pos own, List.getLastD_cons, List.getLastD_nil]
    · rw [if_neg own, if_neg own, List.getLastD_nil]
  | tick world => exact get?_held_tick s world

theorem get?_held_performAll (history : List Operation) (s : Scheduler) :
    ((s.performAll history).2.held id).get? z =
      ((s.performAll history).1.flatMap (Event.notes id z)).getLastD ((s.held id).get? z) := by
  induction history generalizing s with
  | nil => rfl
  | cons operation rest ih =>
    -- What the first operation has left is what the rest of the history falls back on.
    rw [performAll, List.flatMap_cons, getLastD_append, ← get?_held_perform]
    exact ih _

/-! ## Outcomes -/

/-- A zone set is due in a tick if its workload is there and its statistics and roster can be
fetched. -/
def isDue (s : Scheduler) (world : Surroundings) (id : String) (z : ZoneSet) : Bool :=
  (s.workloads[id]?.any fun w => z ∈ w.zoneSets) && (world.statistics id).isSome &&
    (world.roster id).isSome

theorem map_fst_run? {w : Workload} {verdicts : List (ZoneSet × Verdict)} {after : Engine}
    (ran : s.run? world w id = some (verdicts, after)) :
    verdicts.map Prod.fst = (w.cycle (s.held id)).zoneSets := by
  obtain ⟨statistics, roster, engine, -, -, -, enforced⟩ := run?_eq_some.mp ran
  rw [← Engine.map_fst_enforceCycle, enforced]

theorem sorted_outcomesOf (s : Scheduler) (world : Surroundings) (id : String) (w : Workload) :
    (s.outcomesOf world id w).Pairwise Outcome.Before := by
  unfold outcomesOf
  split
  · rename_i verdicts after ran
    have ascending : (verdicts.map Prod.fst).Pairwise (compare · · = .lt) := by
      rw [map_fst_run? ran]
      exact Std.ExtTreeMap.ordered_keys
    rw [List.pairwise_map] at ascending ⊢
    exact ascending.imp fun earlier => .inr ⟨rfl, earlier⟩
  · exact .nil

theorem sorted_outcomes (s : Scheduler) (world : Surroundings) :
    (s.outcomes world).Pairwise Outcome.Before := by
  rw [outcomes, List.pairwise_flatMap]
  constructor
  · intro entry _
    exact sorted_outcomesOf s world entry.1 entry.2
  · -- Outcomes of different workloads are as far apart as the workloads.
    refine Std.ExtTreeMap.ordered_keys_toList.imp fun earlier first own second other => .inl ?_
    rw [workload_of_mem_outcomesOf own, workload_of_mem_outcomesOf other]
    exact earlier

theorem isSome_run? (s : Scheduler) (world : Surroundings) (w : Workload) (id : String) :
    (s.run? world w id).isSome = ((world.statistics id).isSome && (world.roster id).isSome &&
      (s.registry.get? id).isSome) := by
  rw [run?]
  cases world.statistics id with
  | none => rfl
  | some statistics =>
    cases world.roster id with
    | none => rfl
    | some roster => cases s.registry.get? id <;> rfl

theorem countP_verdicts {w : Workload} {verdicts : List (ZoneSet × Verdict)} {after : Engine}
    (ran : s.run? world w id = some (verdicts, after)) :
    verdicts.countP (fun e => e.1 = z) = if z ∈ w.zoneSets then 1 else 0 := by
  have counted : verdicts.countP (fun e => e.1 = z) = (verdicts.map Prod.fst).count z := by
    rw [List.count, List.countP_map]
    rfl
  rw [counted, map_fst_run? ran, Cycle.nodup_zoneSets.count]
  simp only [Workload.mem_zoneSets_cycle]

theorem countP_outcomes (sound : (s.share id).Sound) :
    (s.outcomes world).countP (fun o => o.workload = id ∧ o.zoneSet = z) =
      if s.isDue world id z then 1 else 0 := by
  have own : (s.outcomes world).countP (fun o => o.workload = id ∧ o.zoneSet = z) =
      ((s.share id).outcomes id world).countP (fun o => o.zoneSet = z) := by
    rw [← outcomes_share, List.countP_filter]
    congr 1
    funext o
    simp [Bool.and_comm]
  rw [own, Share.outcomes, run?_share, isDue]
  cases registered : s.workloads[id]? with
  | none => rfl
  | some w =>
    -- There is an engine, so that only what can be fetched decides whether the workload runs.
    have live : (s.registry.get? id).isSome = true :=
      sound.live.trans (congrArg Option.isSome registered)
    have fetched := isSome_run? s world w id
    rw [live, Bool.and_true] at fetched
    rw [Option.bind_some, Option.any_some, Bool.and_assoc, ← fetched]
    cases ran : s.run? world w id with
    | none => simp
    | some result =>
      obtain ⟨verdicts, after⟩ := result
      have counted := countP_verdicts (z := z) ran
      simpa [List.countP_map, Function.comp_def] using counted

theorem isSome_held_of_mem_outcomes {o : Outcome} (sound : (s.share o.workload).Sound)
    (reported : o ∈ s.outcomes world) : ((s.held o.workload).get? o.zoneSet).isSome := by
  obtain ⟨w, verdicts, after, registered, ran, listed⟩ := mem_outcomes.mp reported
  have mem : o.zoneSet ∈ verdicts.map Prod.fst := List.mem_map_of_mem listed
  rw [map_fst_run? ran, Workload.mem_zoneSets_cycle] at mem
  exact sound.entered w registered o.zoneSet mem

theorem get?_held_of_applied {o : Outcome} (sound : (s.share o.workload).Sound)
    (reported : o ∈ s.outcomes world) {old new : Capacity} {direction : Direction}
    (applied : o.verdict = .ok (.applied old new direction)) :
    (s.held o.workload).get? o.zoneSet = some old := by
  obtain ⟨w, -, -, registered, -, -⟩ := mem_outcomes.mp reported
  obtain ⟨status, statistics, roster, turns⟩ := exists_turn_of_outcomes registered world
  obtain ⟨before, p, turn, verdict⟩ := turns o.zoneSet o.verdict reported
  have start : old = (s.held o.workload).get o.zoneSet := by
    rw [Cycle.old_of_verdict_eq_applied (verdict.symm.trans applied),
      Workload.policy_eq turn.policy_eq]
    rfl
  obtain ⟨c, found⟩ := Option.isSome_iff_exists.mp (isSome_held_of_mem_outcomes sound reported)
  rw [start, Allocation.get_eq, found, Option.getD_some]

/-! ## Calls -/

theorem map_request_calls {provision : String → ZoneSet → Capacity → Bool}
    (given : world.provision = some provision) (outcomes : List Outcome) :
    (world.calls outcomes).map Call.request = outcomes.filterMap Outcome.request? := by
  have asked : ∀ o : Outcome, (o.call? provision).map Call.request = o.request? := by
    rintro ⟨id, z, v⟩
    cases v with
    | error refusal => rfl
    | ok decision => cases decision <;> rfl
  simp only [Surroundings.calls, given, List.map_filterMap, asked]

theorem succeeded_of_mem_calls {provision : String → ZoneSet → Capacity → Bool}
    (given : world.provision = some provision) {outcomes : List Outcome} {call : Call}
    (made : call ∈ world.calls outcomes) :
    call.succeeded = provision call.workload call.zoneSet call.target := by
  simp only [Surroundings.calls, given] at made
  obtain ⟨o, -, called⟩ := List.mem_filterMap.mp made
  obtain ⟨target, -, rfl⟩ := Option.map_eq_some_iff.mp called
  rfl

/-- No two calls of a tick are for the same zone set of a workload. -/
theorem distinct_calls (s : Scheduler) (world : Surroundings) :
    (s.tick world).2.1.Pairwise fun first second =>
      ¬ (first.workload = second.workload ∧ first.zoneSet = second.zoneSet) := by
  show (world.calls (s.outcomes world)).Pairwise _
  unfold Surroundings.calls
  split
  · refine List.pairwise_filterMap.mpr ((sorted_outcomes s world).imp ?_)
    rintro first second earlier call called other answered ⟨own, same⟩
    obtain ⟨target, -, rfl⟩ := Option.map_eq_some_iff.mp called
    obtain ⟨target', -, rfl⟩ := Option.map_eq_some_iff.mp answered
    exact earlier.apart own same
  · exact .nil

/-! ## Notes -/

theorem get?_held_of_succeeded {call : Call} (made : call ∈ (s.tick world).2.1)
    (succeeded : call.succeeded = true) :
    ((s.tick world).2.2.held call.workload).get? call.zoneSet = some call.target := by
  obtain ⟨before, after, split⟩ := List.append_of_mem made
  have apart := distinct_calls s world
  rw [split, List.pairwise_append, List.pairwise_cons] at apart
  -- No later call is for the same zone set.
  have silent : after.flatMap (Call.notes call.workload call.zoneSet) = [] := by
    refine List.flatMap_eq_nil_iff.mpr fun later mem => if_neg ?_
    rintro ⟨-, own, same⟩
    exact apart.2.1.1 later mem ⟨own.symm, same.symm⟩
  rw [get?_held_tick, split, List.flatMap_append, List.flatMap_cons, silent, List.append_nil,
    Call.notes, if_pos ⟨succeeded, rfl, rfl⟩, List.getLastD_concat]

theorem get?_held_of_not_succeeded (silent : ∀ call ∈ (s.tick world).2.1, call.succeeded = true →
      ¬ (call.workload = id ∧ call.zoneSet = z)) :
    ((s.tick world).2.2.held id).get? z = (s.held id).get? z := by
  have nothing : (s.tick world).2.1.flatMap (Call.notes id z) = [] := by
    refine List.flatMap_eq_nil_iff.mpr fun call made => if_neg ?_
    rintro ⟨succeeded, own, same⟩
    exact silent call made succeeded ⟨own, same⟩
  rw [get?_held_tick, nothing, List.getLastD_nil]

theorem isSome_lastEnforced?_settle (call : Call) (known : (s.lastEnforced? call.workload).isSome) :
    ((s.settle call).lastEnforced? id).isSome = (s.lastEnforced? id).isSome := by
  rw [settle]
  split
  · rw [lastEnforced?_setLastEnforced]
    by_cases own : call.workload = id
    · rw [if_pos own, ← own, known]
      rfl
    · rw [if_neg own]
  · rfl

theorem isSome_lastEnforced?_foldl_settle {calls : List Call}
    (known : ∀ call ∈ calls, (s.lastEnforced? call.workload).isSome) :
    ((calls.foldl settle s).lastEnforced? id).isSome = (s.lastEnforced? id).isSome := by
  induction calls generalizing s with
  | nil => rfl
  | cons call rest ih =>
    have first := known call List.mem_cons_self
    have later : ∀ next ∈ rest, ((s.settle call).lastEnforced? next.workload).isSome := by
      intro next mem
      rw [isSome_lastEnforced?_settle call first]
      exact known next (List.mem_cons_of_mem _ mem)
    exact (ih later).trans (isSome_lastEnforced?_settle call first)

theorem isSome_lastEnforced?_of_mem_calls (sound : ∀ id, (s.share id).Sound) {call : Call}
    (made : call ∈ (s.tick world).2.1) : (s.lastEnforced? call.workload).isSome := by
  obtain ⟨v, reported, -⟩ := exists_outcome_of_mem_calls made
  have entered := isSome_held_of_mem_outcomes (sound _) reported
  rw [held] at entered
  cases known : s.lastEnforced? call.workload with
  | none => simp [known] at entered
  | some a => rfl

/-! ## Ticks and histories -/

/-- The books of a tick: what it reports, what it asks for, and what it notes. -/
structure KeepsBooks (s : Scheduler) (world : Surroundings) : Prop where
  /-- They are the same when each target is noted before the next outcome is reported. -/
  stepwise : s.tick world = ((s.tickInTurns world).outcomes, (s.tickInTurns world).calls,
    (s.tickInTurns world).scheduler)
  /-- Outcomes are in ascending order of workloads and then of zone sets. -/
  sorted : (s.tick world).1.Pairwise Outcome.Before
  /-- A zone set that is due has one outcome, any other has none. -/
  once : ∀ id z, (s.tick world).1.countP (fun o => o.workload = id ∧ o.zoneSet = z) =
    if s.isDue world id z then 1 else 0
  /-- Every applied change starts from what its zone set holds. -/
  started : ∀ o ∈ (s.tick world).1, ∀ old new direction,
    o.verdict = .ok (.applied old new direction) → (s.held o.workload).get? o.zoneSet = some old
  /-- A provisioner is asked for the target of every applied change once, in the order of the
  outcomes, and for nothing else. Its answers are those that the calls report. -/
  asked : ∀ provision, world.provision = some provision →
    (s.tick world).2.1.map Call.request = (s.tick world).1.filterMap Outcome.request? ∧
    ∀ call ∈ (s.tick world).2.1,
      call.succeeded = provision call.workload call.zoneSet call.target
  /-- Without a provisioner nothing is asked for and nothing is noted. -/
  idle : world.provision = none →
    (s.tick world).2.1 = [] ∧ (s.tick world).2.2.lastEnforced = s.lastEnforced
  /-- What has been provisioned is held afterwards. -/
  noted : ∀ call ∈ (s.tick world).2.1, call.succeeded = true →
    ((s.tick world).2.2.held call.workload).get? call.zoneSet = some call.target
  /-- What has not been provisioned is held as before. -/
  kept : ∀ id z, (∀ call ∈ (s.tick world).2.1, call.succeeded = true →
      ¬ (call.workload = id ∧ call.zoneSet = z)) →
    ((s.tick world).2.2.held id).get? z = (s.held id).get? z
  /-- A workload is known to hold something after a tick if it was before. -/
  known : ∀ id, ((s.tick world).2.2.lastEnforced? id).isSome = (s.lastEnforced? id).isSome

theorem keepsBooks_of_sound (sound : ∀ id, (s.share id).Sound) (world : Surroundings) :
    s.KeepsBooks world where
  stepwise := tick_eq_tickInTurns s world
  sorted := sorted_outcomes s world
  once id _ := countP_outcomes (sound id)
  started o reported _ _ _ applied := get?_held_of_applied (sound o.workload) reported applied
  asked _ given := ⟨map_request_calls given _, fun _ made => succeeded_of_mem_calls given made⟩
  idle absent := by
    have silent : world.calls (s.outcomes world) = [] := by rw [Surroundings.calls, absent]
    refine ⟨silent, ?_⟩
    rw [tick, silent]
    rfl
  noted _ made succeeded := get?_held_of_succeeded made succeeded
  kept _ _ silent := get?_held_of_not_succeeded silent
  known _ := isSome_lastEnforced?_foldl_settle fun _ made =>
    isSome_lastEnforced?_of_mem_calls sound made

/-- Wherever a history has led, a tick keeps its books, and what a zone set holds is what has been
noted for it last: what it started with, what overrode it, or what was provisioned. -/
theorem keepsBooks (history : List Operation) (world : Surroundings) :
    (new.performAll history).2.KeepsBooks world ∧
    ∀ id z, ((new.performAll history).2.held id).get? z =
      ((new.performAll history).1.flatMap (Event.notes id z)).getLastD none := by
  refine ⟨keepsBooks_of_sound (sound_share history) world, fun id z => ?_⟩
  have nothing : (new.held id).get? z = none := rfl
  rw [get?_held_performAll, nothing]

end Scheduler

end Autoscaler
