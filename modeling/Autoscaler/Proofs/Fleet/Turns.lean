import Autoscaler.Proofs.Fleet.Share

/-!
# Workloads in turn

A tick can be had in one go or step by step: one workload after the other runs its cycle, and each
outcome is reported, its target provisioned and noted, before the next one is looked at. Nothing
depends on which it is, because the outcomes of a workload are decided before the first of its targets
is noted, and nothing is noted for a workload in the turns of others (`tick_eq_tickInTurns`).
-/

namespace Autoscaler

/-- How far a tick has come: the scheduler, the outcomes reported and the calls made for them. -/
structure Progress where
  scheduler : Scheduler
  outcomes : List Outcome
  calls : List Call

namespace Progress

/-- Reports an outcome, after the target of an applied change has been provisioned and noted. -/
def report (world : Surroundings) (p : Progress) (o : Outcome) : Progress :=
  let made := world.calls [o]
  ⟨made.foldl Scheduler.settle p.scheduler, p.outcomes ++ [o], p.calls ++ made⟩

/-- The turn of a workload. -/
def turn (world : Surroundings) (p : Progress) (e : String × Workload) : Progress :=
  match p.scheduler.run? world e.2 e.1 with
  | some (verdicts, engine) =>
    let registry := p.scheduler.registry.set e.1 engine
    (verdicts.map fun (z, v) => ⟨e.1, z, v⟩).foldl (report world)
      { p with scheduler := { p.scheduler with registry := registry } }
  | none => p

end Progress

namespace Scheduler

/-- A tick step by step. -/
def tickInTurns (s : Scheduler) (world : Surroundings) : Progress :=
  s.workloads.toList.foldl (Progress.turn world) ⟨s, [], []⟩

variable {s : Scheduler} {world : Surroundings} {id : String}

/-! ## Calls -/

theorem calls_append (world : Surroundings) (first second : List Outcome) :
    world.calls (first ++ second) = world.calls first ++ world.calls second := by
  unfold Surroundings.calls
  split
  · exact List.filterMap_append
  · rfl

theorem workload_of_mem_calls {outcomes : List Outcome} (own : ∀ o ∈ outcomes, o.workload = id)
    {call : Call} (made : call ∈ world.calls outcomes) : call.workload = id := by
  unfold Surroundings.calls at made
  split at made
  · obtain ⟨o, listed, called⟩ := List.mem_filterMap.mp made
    obtain ⟨target, -, rfl⟩ := Option.map_eq_some_iff.mp called
    exact own o listed
  · cases made

theorem settle_with_registry (s : Scheduler) (r : Registry) (call : Call) :
    ({ s with registry := r } : Scheduler).settle call = { s.settle call with registry := r } := by
  rw [settle, settle]
  split <;> rfl

theorem foldl_settle_with_registry (calls : List Call) (s : Scheduler) (r : Registry) :
    calls.foldl settle { s with registry := r } = { calls.foldl settle s with registry := r } := by
  induction calls generalizing s with
  | nil => rfl
  | cons call rest ih => rw [List.foldl_cons, settle_with_registry, ih, List.foldl_cons]

/-! ## One turn -/

theorem foldl_report (outcomes : List Outcome) (p : Progress) :
    outcomes.foldl (Progress.report world) p =
      ⟨(world.calls outcomes).foldl settle p.scheduler, p.outcomes ++ outcomes,
        p.calls ++ world.calls outcomes⟩ := by
  induction outcomes generalizing p with
  | nil =>
    have none : world.calls [] = [] := by
      unfold Surroundings.calls
      split <;> rfl
    simp [none]
  | cons o rest ih =>
    have both : world.calls (o :: rest) = world.calls [o] ++ world.calls rest :=
      calls_append world [o] rest
    rw [List.foldl_cons, ih, Progress.report, both, List.foldl_append, List.append_assoc,
      List.append_assoc, List.singleton_append]

theorem run?_congr {t : Scheduler} (same : t.share id = s.share id) (w : Workload) :
    t.run? world w id = s.run? world w id := by
  have engine : t.registry.get? id = s.registry.get? id := congrArg Share.engine same
  have held : t.held id = s.held id := congrArg Share.held same
  rw [run?, run?, engine, held]

/-- A workload of which nothing has changed yet has the outcomes of a tick in its turn, and puts back
the engine of a tick. -/
theorem turn_eq {p : Progress} {e : String × Workload} (same : p.scheduler.share e.1 = s.share e.1) :
    p.turn world e =
      ⟨(world.calls (s.outcomesOf world e.1 e.2)).foldl settle
          { p.scheduler with registry := s.putBack world p.scheduler.registry e },
        p.outcomes ++ s.outcomesOf world e.1 e.2,
        p.calls ++ world.calls (s.outcomesOf world e.1 e.2)⟩ := by
  rw [Progress.turn, run?_congr same, outcomesOf, putBack]
  cases s.run? world e.2 e.1 with
  | none => exact foldl_report [] p
  | some result => exact foldl_report _ _

theorem share_turn (p : Progress) {e : String × Workload} (different : e.1 ≠ id) :
    (p.turn world e).scheduler.share id = p.scheduler.share id := by
  have engine : (p.scheduler.putBack world p.scheduler.registry e).get? id =
      p.scheduler.registry.get? id := by
    show ([e].foldl (p.scheduler.putBack world) p.scheduler.registry).get? id = _
    exact get?_foldl_putBack (by simpa using different) _
  have others : (world.calls (p.scheduler.outcomesOf world e.1 e.2)).filter (·.workload = id) = [] := by
    refine List.filter_eq_nil_iff.mpr fun call made => ?_
    simpa [workload_of_mem_calls (fun o => workload_of_mem_outcomesOf) made] using different
  rw [turn_eq (s := p.scheduler) rfl, share_foldl_settle, others, List.foldl_nil, share, engine]
  rfl

/-! ## All turns -/

theorem foldl_turn {entries : List (String × Workload)}
    (distinct : entries.Pairwise fun first second => first.1 ≠ second.1) {p : Progress}
    (same : ∀ e ∈ entries, p.scheduler.share e.1 = s.share e.1) :
    entries.foldl (Progress.turn world) p =
      ⟨(world.calls (entries.flatMap fun e => s.outcomesOf world e.1 e.2)).foldl settle
          { p.scheduler with registry := entries.foldl (s.putBack world) p.scheduler.registry },
        p.outcomes ++ entries.flatMap fun e => s.outcomesOf world e.1 e.2,
        p.calls ++ world.calls (entries.flatMap fun e => s.outcomesOf world e.1 e.2)⟩ := by
  induction entries generalizing p with
  | nil => exact foldl_report [] p
  | cons e rest ih =>
    obtain ⟨apart, distinct⟩ := List.pairwise_cons.mp distinct
    -- Workloads differ, so that those which follow are found as they were before this turn.
    have later : ∀ other ∈ rest, (p.turn world e).scheduler.share other.1 = s.share other.1 := by
      intro other mem
      rw [share_turn p (apart other mem)]
      exact same other (List.mem_cons_of_mem _ mem)
    rw [List.foldl_cons, ih distinct later, turn_eq (same e List.mem_cons_self), List.flatMap_cons,
      calls_append, List.foldl_append, List.foldl_cons]
    simp only [foldl_settle_with_registry, List.append_assoc]

/-- A tick does step by step what it does in one go. -/
theorem tick_eq_tickInTurns (s : Scheduler) (world : Surroundings) :
    s.tick world = ((s.tickInTurns world).outcomes, (s.tickInTurns world).calls,
      (s.tickInTurns world).scheduler) := by
  have distinct : s.workloads.toList.Pairwise fun first second => first.1 ≠ second.1 := by
    refine Std.ExtTreeMap.distinct_keys_toList.imp fun apart same => apart ?_
    simp [same]
  rw [tickInTurns, foldl_turn (s := s) distinct fun _ _ => rfl]
  rfl

end Scheduler

end Autoscaler
