import Autoscaler.Proofs.Fleet.Lifecycle
import Autoscaler.Proofs.Fleet.Turns

/-!
# Registration

A scheduler keeps three maps, and writes them one after the other. A request that fails on the way
does not take back what has been written by then. After any history the maps agree nevertheless: a
workload that is there has its own engine and an entry for what it holds, so that a request is refused
before the first map is written (`orderly_performAllInSteps`).
-/

namespace Autoscaler

namespace Scheduler

/-! ## Requests map by map -/

/-- Starts managing a workload: its engine is created, then what it holds is noted, then the workload
itself. -/
def addInSteps (s : Scheduler) (w : Workload) : Except RegistryError Unit × Scheduler :=
  match s.registry.create w.id w.cooldown with
  | .error fault => (.error fault, s)
  | .ok registry =>
    let s := { s with registry }
    let s := { s with lastEnforced := s.lastEnforced.insert w.id w.initial }
    (.ok (), { s with workloads := s.workloads.insert w.id w })

/-- Stops managing a workload: its engine is destroyed, then what it holds is forgotten, then the
workload itself is looked for. -/
def removeInSteps (s : Scheduler) (id : String) : Except RegistryError Workload × Scheduler :=
  match s.registry.destroy id with
  | .error fault => (.error fault, s)
  | .ok (_, registry) =>
    let s := { s with registry }
    let s := { s with lastEnforced := s.lastEnforced.erase id }
    match s.workloads[id]? with
    | some w => (.ok w, { s with workloads := s.workloads.erase id })
    | none => (.error (.notFound id), s)

/-- Performs an operation map by map, a tick workload by workload. -/
def performInSteps (s : Scheduler) : Operation → Response × Scheduler
  | .add w =>
    let (result, after) := s.addInSteps w
    (.added result, after)
  | .remove id =>
    let (result, after) := s.removeInSteps id
    (.removed result, after)
  | .setLastEnforced id z c => (.noted, s.setLastEnforced id z c)
  | .tick world =>
    let p := s.tickInTurns world
    (.ticked ⟨p.outcomes, p.calls⟩, p.scheduler)

/-- Performs operations in turn, each of them map by map. -/
def performAllInSteps (s : Scheduler) : List Operation → List Event × Scheduler
  | [] => ([], s)
  | operation :: rest =>
    let (response, s) := s.performInSteps operation
    let (events, s) := s.performAllInSteps rest
    (⟨operation, response⟩ :: events, s)

variable {s : Scheduler} {id : String}

theorem addInSteps_eq (s : Scheduler) (w : Workload) : s.addInSteps w =
    if (s.share w.id).engine.isSome then (.error (.alreadyExists w.id), s) else (.ok (), s.added w) := by
  have engine : (s.share w.id).engine = s.registry.get? w.id := rfl
  rw [addInSteps, Registry.create, Registry.contains_eq, engine]
  by_cases live : (s.registry.get? w.id).isSome = true
  · rw [if_pos live, if_pos live]
  · rw [if_neg live, if_neg live]
    rfl

-- An engine without a workload would be destroyed although the request fails.
theorem removeInSteps_eq (sound : (s.share id).Sound) : s.removeInSteps id =
    match (s.share id).workload with
    | some w => (.ok w, s.removed id)
    | none => (.error (.notFound id), s) := by
  have engine : s.registry.get? id = (s.share id).engine := rfl
  have workload : s.workloads[id]? = (s.share id).workload := rfl
  rw [removeInSteps, Registry.destroy, engine]
  rcases sound.cases with ⟨gone, absent⟩ | ⟨e, w, live, registered⟩
  · rw [gone, absent]
  · simp only [live, workload, registered]
    rfl

theorem performInSteps_eq (sound : ∀ id, (s.share id).Sound) (operation : Operation) :
    s.performInSteps operation = s.perform operation := by
  cases operation with
  | add w =>
    rw [performInSteps, perform, addInSteps_eq, add_eq]
    by_cases live : (s.share w.id).engine.isSome = true
    · rw [if_pos live, if_pos live]
    · rw [if_neg live, if_neg live]
  | remove id =>
    rw [performInSteps, perform, removeInSteps_eq (sound id), remove_eq]
    rcases (sound id).cases with ⟨gone, absent⟩ | ⟨e, w, live, registered⟩
    · rw [gone, absent]
    · rw [live, registered]
  | setLastEnforced id z c => rfl
  | tick world => rw [performInSteps, perform, tick_eq_tickInTurns]

theorem performAllInSteps_eq (sound : ∀ id, (s.share id).Sound) (history : List Operation) :
    s.performAllInSteps history = s.performAll history := by
  induction history generalizing s with
  | nil => rfl
  | cons operation rest ih =>
    have later := ih (sound_perform sound operation)
    rw [performAllInSteps, performAll, performInSteps_eq sound]
    simp only [later]

end Scheduler

/-! ## Names -/

namespace Share

/-- A workload that is there has an entry for what it holds, and is filed with its engine under its own
id. -/
structure Filed (share : Share) (id : String) : Prop where
  noted : share.workload.isSome → share.enforced.isSome
  workload : ∀ w, share.workload = some w → w.id = id
  engine : ∀ e, share.engine = some e → e.workload = id

variable {share : Share} {id : String}

theorem filed_empty (id : String) : empty.Filed id where
  noted := by
    intro present
    cases present
  workload := by
    intro w absent
    cases absent
  engine := by
    intro e absent
    cases absent

theorem filed_fresh (w : Workload) : (fresh w).Filed w.id where
  noted _ := rfl
  workload := by
    intro other registered
    cases registered
    rfl
  engine := by
    intro e live
    cases live
    rfl

theorem Filed.setLastEnforced (filed : share.Filed id) (z : ZoneSet) (c : Capacity) :
    (share.setLastEnforced z c).Filed id where
  noted _ := rfl
  workload := filed.workload
  engine := filed.engine

theorem workload_engineAfter (named : ∀ e, share.engine = some e → e.workload = id)
    (world : Surroundings) {after : Engine} (ran : share.engineAfter id world = some after) :
    after.workload = id := by
  rw [engineAfter] at ran
  split at ran
  · rename_i verdicts engine cycled
    obtain rfl : engine = after := Option.some.inj ran
    simp only [run?, Option.bind_eq_bind, Option.bind_eq_some_iff, Option.pure_def,
      Option.some.injEq] at cycled
    obtain ⟨w, -, statistics, -, roster, -, e, live, enforced⟩ := cycled
    have kept : engine.workload = e.workload := (congrArg (·.2.workload) enforced).symm
    exact kept.trans (named e live)
  · exact named after ran

theorem Filed.perform (filed : share.Filed id) {operation : Operation}
    (concerned : operation.concerns id = true) : (share.perform id operation).2.Filed id := by
  refine perform_induction (P := (Filed · id)) (fun w added => ?_) (filed_empty id)
    (fun _ z c filed => filed.setLastEnforced z c) (fun world filed => ?_) filed
  · have own : w.id = id := by simpa [added, Operation.concerns] using concerned
    exact own ▸ filed_fresh w
  · exact ⟨filed.noted, filed.workload, fun _ => workload_engineAfter filed.engine world⟩

end Share

namespace Scheduler

variable {s : Scheduler} {id : String}

theorem filed_share (history : List Operation) (id : String) :
    ((new.performAll history).2.share id).Filed id :=
  share_induction_of_concerns (P := (Share.Filed · id)) (Share.filed_empty id)
    (fun _ _ concerned filed => filed.perform concerned) history

/-! ## What every history leaves -/

/-- The maps of a scheduler agree, and with them what it answers when a workload is to be added or to
be removed. -/
structure Orderly (s : Scheduler) : Prop where
  /-- The workloads with an engine are the workloads. -/
  registered : ∀ id, id ∈ s.registry.workloads ↔ id ∈ s.workloads.keys
  /-- What they hold is noted for all of them. -/
  noted : ∀ id ∈ s.workloads.keys, id ∈ s.lastEnforced.keys
  /-- An engine is filed under the name of its workload. -/
  named : ∀ id e, s.registry.get? id = some e → e.workload = id
  /-- In every tick a workload has an engine when its turn comes. -/
  attended : ∀ world before id w after, s.workloads.toList = before ++ (id, w) :: after →
    ((before.foldl (Progress.turn world) ⟨s, [], []⟩).scheduler.registry.get? id).isSome
  /-- A workload can be added unless its id is taken. It is then kept as in a scheduler that is new. -/
  add : ∀ w, if w.id ∈ s.registry.workloads then s.addInSteps w = (.error (.alreadyExists w.id), s)
    else ∃ after, s.addInSteps w = (.ok (), after) ∧
      after.share w.id = (new.addInSteps w).2.share w.id ∧
      ∀ id, id ≠ w.id → after.share id = s.share id
  /-- A workload can be removed when it is there. Nothing is then kept of it. -/
  remove : ∀ id, if id ∈ s.registry.workloads then
      ∃ w after, s.removeInSteps id = (.ok w, after) ∧ s.workloads[id]? = some w ∧
        after.share id = .empty ∧ ∀ other, other ≠ id → after.share other = s.share other
    else s.removeInSteps id = (.error (.notFound id), s)

theorem mem_workloads_iff_engine : id ∈ s.registry.workloads ↔ (s.share id).engine.isSome :=
  Registry.mem_workloads

theorem mem_keys_iff_workload : id ∈ s.workloads.keys ↔ (s.share id).workload.isSome := by
  rw [Std.ExtTreeMap.mem_keys, Std.ExtTreeMap.mem_iff_isSome_getElem?]
  rfl

theorem mem_keys_iff_enforced : id ∈ s.lastEnforced.keys ↔ (s.share id).enforced.isSome := by
  rw [Std.ExtTreeMap.mem_keys, Std.ExtTreeMap.mem_iff_isSome_getElem?]
  rfl

theorem share_foldl_turn {world : Surroundings} {entries : List (String × Workload)}
    (others : ∀ e ∈ entries, e.1 ≠ id) (p : Progress) :
    (entries.foldl (Progress.turn world) p).scheduler.share id = p.scheduler.share id := by
  induction entries generalizing p with
  | nil => rfl
  | cons e rest ih =>
    rw [List.foldl_cons, ih fun e mem => others e (List.mem_cons_of_mem _ mem),
      share_turn p (others e List.mem_cons_self)]

/-- The turns of others do not take the engine of a workload away. -/
theorem isSome_engine_at_turn (sound : (s.share id).Sound) (world : Surroundings)
    {before after : List (String × Workload)} {w : Workload}
    (split : s.workloads.toList = before ++ (id, w) :: after) :
    ((before.foldl (Progress.turn world) ⟨s, [], []⟩).scheduler.registry.get? id).isSome := by
  have found : s.workloads[id]? = some w := by
    rw [← Std.ExtTreeMap.mem_toList_iff_getElem?_eq_some, split]
    simp
  have distinct := Std.ExtTreeMap.distinct_keys_toList (t := s.workloads)
  rw [split, List.pairwise_append] at distinct
  obtain ⟨-, -, apart⟩ := distinct
  have others : ∀ e ∈ before, e.1 ≠ id := by
    intro e mem same
    exact apart e mem (id, w) List.mem_cons_self (by simp [same])
  have engine : (before.foldl (Progress.turn world) ⟨s, [], []⟩).scheduler.registry.get? id =
      (s.share id).engine := congrArg Share.engine (share_foldl_turn others ⟨s, [], []⟩)
  have workload : (s.share id).workload = some w := found
  rw [engine, sound.live, workload]
  rfl

theorem add_of_new (s : Scheduler) (w : Workload) :
    if w.id ∈ s.registry.workloads then s.addInSteps w = (.error (.alreadyExists w.id), s)
    else ∃ after, s.addInSteps w = (.ok (), after) ∧
      after.share w.id = (new.addInSteps w).2.share w.id ∧
      ∀ id, id ≠ w.id → after.share id = s.share id := by
  have first : new.addInSteps w = (.ok (), new.added w) := addInSteps_eq new w
  rw [addInSteps_eq, first]
  split
  · rename_i taken
    rw [if_pos (mem_workloads_iff_engine.mp taken)]
  · rename_i free
    rw [if_neg fun live => free (mem_workloads_iff_engine.mpr live)]
    refine ⟨s.added w, rfl, ?_, ?_⟩
    · rw [share_added, share_added, if_pos rfl, if_pos rfl]
    · intro id different
      rw [share_added, if_neg different.symm]

theorem remove_of_sound (sound : (s.share id).Sound) :
    if id ∈ s.registry.workloads then
      ∃ w after, s.removeInSteps id = (.ok w, after) ∧ s.workloads[id]? = some w ∧
        after.share id = .empty ∧ ∀ other, other ≠ id → after.share other = s.share other
    else s.removeInSteps id = (.error (.notFound id), s) := by
  rw [removeInSteps_eq sound]
  rcases sound.cases with ⟨gone, absent⟩ | ⟨e, w, live, registered⟩
  · rw [absent, if_neg]
    intro listed
    have live := mem_workloads_iff_engine.mp listed
    rw [gone] at live
    cases live
  · rw [registered, if_pos (mem_workloads_iff_engine.mpr (by rw [live]; rfl))]
    refine ⟨w, s.removed id, rfl, registered, ?_, ?_⟩
    · rw [share_removed, if_pos rfl]
    · intro other different
      rw [share_removed, if_neg different.symm]

/-- Whatever has been asked of a scheduler since it was new, its maps agree. That they are written one
after the other, and never restored, makes no difference to what it answers. -/
theorem orderly_performAllInSteps (history : List Operation) :
    new.performAllInSteps history = new.performAll history ∧
      (new.performAllInSteps history).2.Orderly := by
  have same : new.performAllInSteps history = new.performAll history :=
    performAllInSteps_eq (s := new) (fun _ => Share.sound_empty) history
  refine ⟨same, ?_⟩
  rw [same]
  have sound := sound_share history
  have filed := filed_share history
  constructor
  · intro id
    rw [mem_workloads_iff_engine, mem_keys_iff_workload, (sound id).live]
  · intro id listed
    rw [mem_keys_iff_workload] at listed
    rw [mem_keys_iff_enforced]
    exact (filed id).noted listed
  · intro id e live
    exact (filed id).engine e live
  · intro world before id w after split
    exact isSome_engine_at_turn (sound id) world split
  · exact add_of_new _
  · intro id
    exact remove_of_sound (sound id)

end Scheduler

end Autoscaler
