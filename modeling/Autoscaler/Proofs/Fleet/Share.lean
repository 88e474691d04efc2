import Autoscaler.Proofs.Fleet.History

/-!
# Shares of workloads

What a scheduler keeps for one workload is its share: the engine, the workload itself, and what its
zone sets hold. A scheduler is as good as the family of its shares. An operation that names a workload
acts on its share alone, a tick on every share by itself, and what is answered to a workload can be
read off its share (`perform_eq_share`, `performAll_eq_share`).
-/

namespace Autoscaler

/-- What a scheduler keeps for one workload. -/
structure Share where
  engine : Option Engine
  workload : Option Workload
  enforced : Option Allocation

/-- What a scheduler keeps for a workload. -/
def Scheduler.share (s : Scheduler) (id : String) : Share :=
  ⟨s.registry.get? id, s.workloads[id]?, s.lastEnforced? id⟩

namespace Share

/-- Nothing is kept for a workload that is not there. -/
def empty : Share := ⟨none, none, none⟩

/-- What is kept for a workload that has just been added. -/
def fresh (w : Workload) : Share := ⟨some w.engine, some w, some w.initial⟩

/-- What the zone sets of the workload hold, nothing when none is known. -/
def held (share : Share) : Allocation := share.enforced.getD .empty

/-- Adds a workload that is not there. -/
def add (share : Share) (w : Workload) : Except RegistryError Share :=
  if share.engine.isSome then .error (.alreadyExists w.id) else .ok (fresh w)

/-- Removes the workload. -/
def remove (share : Share) (id : String) : Except RegistryError (Workload × Share) :=
  match share.engine, share.workload with
  | some _, some w => .ok (w, empty)
  | _, _ => .error (.notFound id)

/-- Notes what a zone set holds. -/
def setLastEnforced (share : Share) (z : ZoneSet) (c : Capacity) : Share :=
  { share with enforced := some (share.held.set z c) }

/-- Notes the target of a call that succeeded. -/
def settle (share : Share) (call : Call) : Share :=
  if call.succeeded then share.setLastEnforced call.zoneSet call.target else share

/-- The verdicts of a tick and the engine after them, when statistics and roster can be fetched and
there is an engine. -/
def run? (share : Share) (id : String) (world : Surroundings) :
    Option (List (ZoneSet × Verdict) × Engine) := do
  let w ← share.workload
  let statistics ← world.statistics id
  let roster ← world.roster id
  let engine ← share.engine
  return engine.enforceCycle (w.cycle share.held) statistics roster world.now

/-- The outcomes of a tick. -/
def outcomes (share : Share) (id : String) (world : Surroundings) : List Outcome :=
  match share.run? id world with
  | some (verdicts, _) => verdicts.map fun (z, v) => ⟨id, z, v⟩
  | none => []

/-- The engine after a tick. -/
def engineAfter (share : Share) (id : String) (world : Surroundings) : Option Engine :=
  match share.run? id world with
  | some (_, engine) => some engine
  | none => share.engine

/-- A tick of the workload. -/
def tick (share : Share) (id : String) (world : Surroundings) : Tick × Share :=
  let outcomes := share.outcomes id world
  let calls := world.calls outcomes
  (⟨outcomes, calls⟩, calls.foldl settle { share with engine := share.engineAfter id world })

/-- Performs an operation that concerns the workload. -/
def perform (share : Share) (id : String) : Operation → Response × Share
  | .add w =>
    match share.add w with
    | .ok after => (.added (.ok ()), after)
    | .error fault => (.added (.error fault), share)
  | .remove _ =>
    match share.remove id with
    | .ok (w, after) => (.removed (.ok w), after)
    | .error fault => (.removed (.error fault), share)
  | .setLastEnforced _ z c => (.noted, share.setLastEnforced z c)
  | .tick world =>
    let (tick, after) := share.tick id world
    (.ticked tick, after)

/-- Performs operations that concern the workload, in turn. -/
def performAll (share : Share) (id : String) : List Operation → List Response × Share
  | [] => ([], share)
  | operation :: rest =>
    let (response, share) := share.perform id operation
    let (responses, share) := share.performAll id rest
    (response :: responses, share)

end Share

/-! ## What concerns a workload -/

/-- The operations that name a workload, and every tick. -/
def Operation.concerns (id : String) : Operation → Bool
  | .add w => w.id = id
  | .remove other => other = id
  | .setLastEnforced other _ _ => other = id
  | .tick _ => true

/-- The part of a tick that is about a workload. -/
def Tick.about (id : String) (t : Tick) : Tick where
  outcomes := t.outcomes.filter (·.workload = id)
  calls := t.calls.filter (·.workload = id)

/-- The part of an answer that is about a workload. -/
def Response.about (id : String) : Response → Response
  | .ticked tick => .ticked (tick.about id)
  | response => response

/-- What a workload is answered in an event that concerns it. -/
def Event.answer? (id : String) (e : Event) : Option Response :=
  if e.operation.concerns id then some (e.response.about id) else none

/-! ## Entries of one workload -/

section
variable {β γ : Type} {m : Std.ExtTreeMap String β} {id : String}

theorem exists_split_toList {v : β} (found : m[id]? = some v) :
    ∃ before after, m.toList = before ++ (id, v) :: after ∧
      (∀ e ∈ before, e.1 ≠ id) ∧ ∀ e ∈ after, e.1 ≠ id := by
  obtain ⟨before, after, split⟩ :=
    List.append_of_mem (Std.ExtTreeMap.mem_toList_iff_getElem?_eq_some.mpr found)
  have distinct := Std.ExtTreeMap.distinct_keys_toList (t := m)
  rw [split, List.pairwise_append, List.pairwise_cons] at distinct
  obtain ⟨-, ⟨later, -⟩, earlier⟩ := distinct
  refine ⟨before, after, split, fun e mem same => ?_, fun e mem same => ?_⟩
  · exact earlier e mem (id, v) List.mem_cons_self (by simp [same])
  · exact later e mem (by simp [same])

theorem ne_of_mem_toList (absent : m[id]? = none) {e : String × β} (mem : e ∈ m.toList) :
    e.1 ≠ id := by
  rintro rfl
  cases absent.symm.trans (Std.ExtTreeMap.mem_toList_iff_getElem?_eq_some.mp mem)

variable (id) in
/-- Of entries that yield nothing but for one key, only the entry of that key counts. -/
theorem flatMap_toList {f : String × β → List γ} (others : ∀ e, e.1 ≠ id → f e = []) :
    m.toList.flatMap f = (m[id]?.map fun v => f (id, v)).getD [] := by
  cases found : m[id]? with
  | none => exact List.flatMap_eq_nil_iff.mpr fun e mem => others e (ne_of_mem_toList found mem)
  | some v =>
    obtain ⟨before, after, split, earlier, later⟩ := exists_split_toList found
    have first := List.flatMap_eq_nil_iff.mpr fun e mem => others e (earlier e mem)
    have last := List.flatMap_eq_nil_iff.mpr fun e mem => others e (later e mem)
    rw [split, List.flatMap_append, List.flatMap_cons, first, last]
    simp

end

theorem Surroundings.filter_calls (world : Surroundings) (outcomes : List Outcome) (id : String) :
    (world.calls outcomes).filter (·.workload = id) =
      world.calls (outcomes.filter (·.workload = id)) := by
  unfold calls
  split
  · rename_i provision _
    rw [List.filter_filterMap, List.filterMap_filter]
    congr 1
    funext o
    rw [Outcome.call?]
    cases o.verdict.change? with
    | none => simp
    | some target => by_cases own : o.workload = id <;> simp [own, Option.filter]
  · rfl

namespace Scheduler

variable {s : Scheduler} {id : String} {world : Surroundings}

theorem run?_share (s : Scheduler) (id : String) (world : Surroundings) :
    (s.share id).run? id world = s.workloads[id]?.bind fun w => s.run? world w id := rfl

/-! ## Ticks -/

theorem workload_of_mem_outcomesOf {w : Workload} {o : Outcome}
    (mem : o ∈ s.outcomesOf world id w) : o.workload = id := by
  rw [outcomesOf] at mem
  split at mem
  · obtain ⟨verdict, -, rfl⟩ := List.mem_map.mp mem
    rfl
  · cases mem

theorem filter_outcomesOf (s : Scheduler) (world : Surroundings) (id other : String) (w : Workload) :
    (s.outcomesOf world other w).filter (·.workload = id) =
      if other = id then s.outcomesOf world other w else [] := by
  by_cases own : other = id
  · rw [if_pos own]
    exact List.filter_eq_self.mpr fun o mem => by
      simpa using (workload_of_mem_outcomesOf mem).trans own
  · rw [if_neg own]
    exact List.filter_eq_nil_iff.mpr fun o mem => by
      simpa [workload_of_mem_outcomesOf mem] using own

theorem outcomes_share (s : Scheduler) (world : Surroundings) (id : String) :
    (s.outcomes world).filter (·.workload = id) = (s.share id).outcomes id world := by
  rw [outcomes, List.filter_flatMap, flatMap_toList id, Share.outcomes, run?_share]
  · cases s.workloads[id]? with
    | none => rfl
    | some w =>
      show (s.outcomesOf world id w).filter (·.workload = id) = _
      rw [filter_outcomesOf, if_pos rfl]
      rfl
  · intro e different
    rw [filter_outcomesOf, if_neg different]

/-- Puts back the engine of a workload that has run. -/
def putBack (s : Scheduler) (world : Surroundings) (r : Registry) (e : String × Workload) : Registry :=
  match s.run? world e.2 e.1 with
  | some (_, engine) => r.set e.1 engine
  | none => r

theorem enginesAfter_eq (s : Scheduler) (world : Surroundings) :
    s.enginesAfter world = s.workloads.toList.foldl (s.putBack world) s.registry := rfl

theorem get?_foldl_putBack {entries : List (String × Workload)}
    (others : ∀ e ∈ entries, e.1 ≠ id) (r : Registry) :
    (entries.foldl (s.putBack world) r).get? id = r.get? id := by
  induction entries generalizing r with
  | nil => rfl
  | cons e rest ih =>
    have different := others e List.mem_cons_self
    rw [List.foldl_cons, ih fun e mem => others e (List.mem_cons_of_mem _ mem), putBack]
    split
    · rw [Registry.get?_set, if_neg different]
    · rfl

theorem get?_enginesAfter (s : Scheduler) (world : Surroundings) (id : String) :
    (s.enginesAfter world).get? id = (s.share id).engineAfter id world := by
  rw [enginesAfter_eq, Share.engineAfter, run?_share]
  cases found : s.workloads[id]? with
  | none => exact get?_foldl_putBack (fun e => ne_of_mem_toList found) _
  | some w =>
    obtain ⟨before, after, split, earlier, later⟩ := exists_split_toList found
    rw [split, List.foldl_append, List.foldl_cons, get?_foldl_putBack later, putBack, Option.bind_some]
    cases s.run? world w id with
    | none => exact get?_foldl_putBack earlier _
    | some result => rw [Registry.get?_set, if_pos rfl]

theorem share_setLastEnforced (s : Scheduler) (other : String) (z : ZoneSet) (c : Capacity) :
    (s.setLastEnforced other z c).share id =
      if other = id then (s.share id).setLastEnforced z c else s.share id := by
  rw [share, lastEnforced?_setLastEnforced]
  by_cases own : other = id
  · subst own
    rw [if_pos rfl, if_pos rfl]
    rfl
  · rw [if_neg own, if_neg own]
    rfl

theorem share_settle (s : Scheduler) (call : Call) :
    (s.settle call).share id = if call.workload = id then (s.share id).settle call else s.share id := by
  rw [settle, Share.settle]
  by_cases succeeded : call.succeeded = true
  · rw [if_pos succeeded, if_pos succeeded, share_setLastEnforced]
  · rw [if_neg succeeded, if_neg succeeded, ite_self]

theorem share_foldl_settle (calls : List Call) (s : Scheduler) :
    (calls.foldl settle s).share id =
      (calls.filter (·.workload = id)).foldl Share.settle (s.share id) := by
  induction calls generalizing s with
  | nil => rfl
  | cons call rest ih =>
    rw [List.foldl_cons, ih, share_settle]
    by_cases own : call.workload = id <;> simp [own]

theorem tick_share (s : Scheduler) (world : Surroundings) (id : String) :
    Tick.about id ⟨(s.tick world).1, (s.tick world).2.1⟩ = ((s.share id).tick id world).1 ∧
      (s.tick world).2.2.share id = ((s.share id).tick id world).2 := by
  have outcomes := outcomes_share s world id
  have calls : (s.tick world).2.1.filter (·.workload = id) =
      world.calls ((s.share id).outcomes id world) := by
    rw [← outcomes]
    exact world.filter_calls _ id
  constructor
  · rw [Tick.about, calls]
    exact congrArg (Tick.mk · _) outcomes
  · show ((s.tick world).2.1.foldl settle { s with registry := s.enginesAfter world }).share id = _
    rw [share_foldl_settle, calls, Share.tick, ← get?_enginesAfter]
    rfl

/-! ## Workloads that come and go -/

/-- A scheduler to which a workload has been added, or added anew. -/
def added (s : Scheduler) (w : Workload) : Scheduler :=
  ⟨s.registry.set w.id w.engine, s.workloads.insert w.id w, s.lastEnforced.insert w.id w.initial⟩

/-- A scheduler from which a workload has been removed. -/
def removed (s : Scheduler) (id : String) : Scheduler :=
  ⟨⟨s.registry.engines.erase id⟩, s.workloads.erase id, s.lastEnforced.erase id⟩

theorem add_eq (s : Scheduler) (w : Workload) : s.add w =
    if (s.share w.id).engine.isSome then .error (.alreadyExists w.id) else .ok (s.added w) := by
  have engine : (s.share w.id).engine = s.registry.get? w.id := rfl
  rw [add, Registry.create, Registry.contains_eq, engine]
  by_cases live : (s.registry.get? w.id).isSome = true
  · rw [if_pos live, if_pos live]
    rfl
  · rw [if_neg live, if_neg live]
    rfl

theorem remove_eq (s : Scheduler) (id : String) : s.remove id =
    match (s.share id).engine, (s.share id).workload with
    | some _, some w => .ok (w, s.removed id)
    | _, _ => .error (.notFound id) := by
  rw [remove, Registry.destroy]
  simp only [share]
  cases s.registry.get? id with
  | none => rfl
  | some engine =>
    simp only [bind, Except.bind]
    cases s.workloads[id]? with
    | none => rfl
    | some w => rfl

theorem share_added (s : Scheduler) (w : Workload) (id : String) :
    (s.added w).share id = if w.id = id then Share.fresh w else s.share id := by
  rw [share, added, Registry.get?_set, lastEnforced?, Std.ExtTreeMap.getElem?_insert,
    Std.ExtTreeMap.getElem?_insert]
  by_cases own : w.id = id
  · simp [own, Share.fresh]
  · simp [own, share, lastEnforced?]

theorem share_removed (s : Scheduler) (other id : String) :
    (s.removed other).share id = if other = id then Share.empty else s.share id := by
  rw [share, removed, Registry.get?, lastEnforced?, Std.ExtTreeMap.getElem?_erase,
    Std.ExtTreeMap.getElem?_erase, Std.ExtTreeMap.getElem?_erase]
  by_cases own : other = id
  · simp [own, Share.empty]
  · simp [own, share, Registry.get?, lastEnforced?]

/-! ## Operations -/

/-- An operation that concerns a workload is answered from its share, and acts on it, as if there were
nothing else. -/
theorem perform_eq_share {operation : Operation} (concerned : operation.concerns id = true)
    (s : Scheduler) :
    (s.perform operation).1.about id = ((s.share id).perform id operation).1 ∧
      (s.perform operation).2.share id = ((s.share id).perform id operation).2 := by
  cases operation with
  | add w =>
    have own : w.id = id := by simpa [Operation.concerns] using concerned
    subst own
    rw [perform, add_eq, Share.perform, Share.add]
    by_cases live : (s.share w.id).engine.isSome = true
    · simp [live, Response.about]
    · simp [live, Response.about, share_added]
  | remove other =>
    have own : other = id := by simpa [Operation.concerns] using concerned
    subst own
    rw [perform, remove_eq, Share.perform, Share.remove]
    cases (s.share other).engine with
    | none => exact ⟨rfl, rfl⟩
    | some engine =>
      cases (s.share other).workload with
      | none => exact ⟨rfl, rfl⟩
      | some w => exact ⟨rfl, (share_removed s other other).trans (if_pos rfl)⟩
  | setLastEnforced other z c =>
    have own : other = id := by simpa [Operation.concerns] using concerned
    exact ⟨rfl, (share_setLastEnforced s other z c).trans (if_pos own)⟩
  | tick world =>
    obtain ⟨answered, after⟩ := tick_share s world id
    exact ⟨congrArg Response.ticked answered, after⟩

/-- An operation that names another workload leaves a share as it is. -/
theorem share_perform_of_not_concerns {operation : Operation}
    (unconcerned : operation.concerns id = false) (s : Scheduler) :
    (s.perform operation).2.share id = s.share id := by
  cases operation with
  | add w =>
    have different : w.id ≠ id := by simpa [Operation.concerns] using unconcerned
    rw [perform, add_eq]
    by_cases live : (s.share w.id).engine.isSome = true
    · simp [live]
    · simp [live, share_added, different]
  | remove other =>
    have different : other ≠ id := by simpa [Operation.concerns] using unconcerned
    rw [perform, remove_eq]
    cases (s.share other).engine with
    | none => rfl
    | some engine =>
      cases (s.share other).workload with
      | none => rfl
      | some w => exact (share_removed s other id).trans (if_neg different)
  | setLastEnforced other z c =>
    have different : other ≠ id := by simpa [Operation.concerns] using unconcerned
    exact (share_setLastEnforced s other z c).trans (if_neg different)
  | tick world => cases unconcerned

/-- A workload sees of a history what its share shows of the operations that concern it. -/
theorem performAll_eq_share (history : List Operation) (s : Scheduler) (id : String) :
    (s.performAll history).1.filterMap (Event.answer? id) =
        ((s.share id).performAll id (history.filter (·.concerns id))).1 ∧
      (s.performAll history).2.share id =
        ((s.share id).performAll id (history.filter (·.concerns id))).2 := by
  induction history generalizing s with
  | nil => exact ⟨rfl, rfl⟩
  | cons operation rest ih =>
    obtain ⟨answers, after⟩ := ih (s.perform operation).2
    rw [performAll, List.filterMap_cons, Event.answer?]
    cases concerned : operation.concerns id with
    | false =>
      rw [share_perform_of_not_concerns concerned] at answers after
      rw [List.filter_cons_of_neg (by simp [concerned])]
      exact ⟨answers, after⟩
    | true =>
      obtain ⟨answered, acted⟩ := perform_eq_share concerned s
      rw [acted] at answers after
      rw [List.filter_cons_of_pos concerned, Share.performAll]
      exact ⟨congr (congrArg List.cons answered) answers, after⟩

end Scheduler

end Autoscaler
