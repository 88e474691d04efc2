import Autoscaler.Proofs.Enforcement.Cooldown
import Autoscaler.Proofs.Fleet.Lifecycle
import Autoscaler.Proofs.Fleet.Totals

/-!
# Cooldowns of workloads

The gate of a workload is what its sightings have made of it (`attended_performAll`), and only a tick
in which statistics and roster can be fetched is one. A tick at which instances have joined or left
shuts the gate until the window has passed. Until then the workload rests, whatever else is asked of
the scheduler and wherever its clock jumps (`rests_while_cooling`).
-/

namespace Autoscaler

/-- What the gate of a workload sees in a tick. -/
def Surroundings.sighting? (world : Surroundings) (id : String) : Option Cooldown.Sighting := do
  let _ ← world.statistics id
  let roster ← world.roster id
  return ⟨.ofList roster.ids, world.now⟩

/-- What the gate of a workload sees when an operation is performed. -/
def Operation.sighting? (id : String) : Operation → Option Cooldown.Sighting
  | .tick world => world.sighting? id
  | _ => none

/-! ## The gate of a workload -/

namespace Share

variable {share : Share} {id : String} {w : Workload} {g : Cooldown.Gate} {world : Surroundings}

/-- The workload is there, and its engine has a gate. -/
structure Attended (share : Share) (w : Workload) (g : Cooldown.Gate) : Prop where
  registered : share.workload = some w
  live : ∃ e, share.engine = some e ∧ e.gate = g

theorem attended_fresh (w : Workload) : (fresh w).Attended w (.new w.cooldown) :=
  ⟨rfl, w.engine, rfl, rfl⟩

/-- All that a tick can do to an engine: its gate sees the instances of now and it enforces the cycle
of its workload, or there is nothing to see and it stays as it is. -/
theorem engineAfter_cases {e : Engine} (registered : share.workload = some w)
    (live : share.engine = some e) (id : String) (world : Surroundings) :
    (∃ statistics roster, world.roster id = some roster ∧
      world.sighting? id = some ⟨.ofList roster.ids, world.now⟩ ∧
      share.engineAfter id world =
        some (e.enforceCycle (w.cycle share.held) statistics roster world.now).2) ∨
    world.sighting? id = none ∧ share.engineAfter id world = some e := by
  simp only [engineAfter, run?, registered, live, Surroundings.sighting?]
  cases world.statistics id with
  | none => exact .inr ⟨rfl, rfl⟩
  | some statistics =>
    cases world.roster id with
    | none => exact .inr ⟨rfl, rfl⟩
    | some roster => exact .inl ⟨statistics, roster, rfl, rfl, rfl⟩

theorem Attended.ran (attended : share.Attended w g) (id : String) (world : Surroundings) :
    Attended { share with engine := share.engineAfter id world } w
      (g.observeAll (world.sighting? id).toList) := by
  obtain ⟨registered, e, live, rfl⟩ := attended
  refine ⟨registered, ?_⟩
  rcases engineAfter_cases registered live id world with
    ⟨statistics, roster, -, seen, after⟩ | ⟨unseen, after⟩
  · rw [seen]
    exact ⟨_, after, rfl⟩
  · rw [unseen]
    exact ⟨e, after, rfl⟩

theorem Attended.setLastEnforced (attended : share.Attended w g) (z : ZoneSet) (c : Capacity) :
    (share.setLastEnforced z c).Attended w g := ⟨attended.registered, attended.live⟩

theorem Attended.perform (attended : share.Attended w g) {operation : Operation}
    (kept : operation ≠ .remove id) (concerned : operation.concerns id = true) :
    (share.perform id operation).2.Attended w (g.observeAll (operation.sighting? id).toList) := by
  cases operation with
  | add other =>
    obtain ⟨e, live, -⟩ := attended.live
    rw [Share.perform, add, live]
    exact attended
  | remove other =>
    have own : other = id := by simpa [Operation.concerns] using concerned
    exact absurd (congrArg Operation.remove own) kept
  | setLastEnforced other z c => exact attended.setLastEnforced z c
  | tick world =>
    exact foldl_settle_induction (P := (Attended · w _))
      (fun _ z c attended => attended.setLastEnforced z c) _ (attended.ran id world)

/-- A workload that is there has an engine with its own windows. -/
def Equipped (share : Share) : Prop :=
  ∀ w, share.workload = some w → ∃ g, share.Attended w g ∧ g.windows = w.cooldown

theorem equipped_empty : empty.Equipped := by
  intro w absent
  cases absent

theorem Equipped.setLastEnforced (equipped : share.Equipped) (z : ZoneSet) (c : Capacity) :
    (share.setLastEnforced z c).Equipped := by
  intro w registered
  obtain ⟨g, attended, windows⟩ := equipped w registered
  exact ⟨g, attended.setLastEnforced z c, windows⟩

theorem Equipped.perform (equipped : share.Equipped) (id : String) (operation : Operation) :
    (share.perform id operation).2.Equipped := by
  refine perform_induction (fun w _ => ?_) equipped_empty
    (fun _ z c equipped => equipped.setLastEnforced z c) (fun world equipped => ?_) equipped
  · intro other registered
    cases Option.some.inj registered
    exact ⟨_, attended_fresh w, rfl⟩
  · intro w registered
    obtain ⟨g, attended, windows⟩ := equipped w registered
    exact ⟨_, attended.ran id world, (g.windows_observeAll _).trans windows⟩

theorem latest_engineAfter {e : Engine} (registered : share.workload = some w)
    (live : share.engine = some e)
    (waiting : ∀ roster, world.roster id = some roster → e.statusAt roster world.now ≠ .ready) :
    (share.engineAfter id world).map Engine.latest = some e.latest := by
  rcases engineAfter_cases registered live id world with
    ⟨statistics, roster, known, -, after⟩ | ⟨-, after⟩
  · rw [after]
    exact congrArg some (Engine.latest_enforceCycle (waiting roster known))
  · rw [after]
    rfl

end Share

namespace Scheduler

variable {s : Scheduler} {id : String} {w : Workload} {g : Cooldown.Gate} {world : Surroundings}

theorem performAll_append (s : Scheduler) (first second : List Operation) :
    (s.performAll (first ++ second)).2 = ((s.performAll first).2.performAll second).2 := by
  induction first generalizing s with
  | nil => rfl
  | cons operation rest ih => exact ih (s.perform operation).2

theorem attended_perform (attended : (s.share id).Attended w g) {operation : Operation}
    (kept : operation ≠ .remove id) :
    ((s.perform operation).2.share id).Attended w
      (g.observeAll (operation.sighting? id).toList) := by
  cases concerned : operation.concerns id with
  | true =>
    rw [(perform_eq_share concerned s).2]
    exact attended.perform kept concerned
  | false =>
    have unseen : operation.sighting? id = none := by
      cases operation with
      | tick world => cases concerned
      | _ => rfl
    rw [share_perform_of_not_concerns concerned, unseen]
    exact attended

/-- Until a workload is removed, its gate is what the sightings of the history make of it. -/
theorem attended_performAll {history : List Operation} (attended : (s.share id).Attended w g)
    (kept : ∀ operation ∈ history, operation ≠ .remove id) :
    ((s.performAll history).2.share id).Attended w
      (g.observeAll (history.filterMap (Operation.sighting? id))) := by
  induction history generalizing s g with
  | nil => exact attended
  | cons operation rest ih =>
    have first := attended_perform attended (kept operation List.mem_cons_self)
    have later := ih first fun other mem => kept other (List.mem_cons_of_mem _ mem)
    rw [← Cooldown.Gate.observeAll_append] at later
    show (((s.perform operation).2.performAll rest).2.share id).Attended w _
    rw [List.filterMap_cons]
    cases seen : operation.sighting? id with
    | none => simpa [seen] using later
    | some sighting => simpa [seen] using later

/-- In a tick the cycle of a workload runs, and its gate sees a roster. -/
structure RunsOn (s : Scheduler) (id : String) (world : Surroundings) (w : Workload)
    (roster : Roster) : Prop where
  registered : s.workloads[id]? = some w
  ran : (s.run? world w id).isSome
  known : world.roster id = some roster

theorem RunsOn.sighting {roster : Roster} (runs : s.RunsOn id world w roster) :
    world.sighting? id = some ⟨.ofList roster.ids, world.now⟩ := by
  obtain ⟨result, ran⟩ := Option.isSome_iff_exists.mp runs.ran
  obtain ⟨statistics, _, _, fetched, -⟩ := run?_eq_some.mp ran
  simp [Surroundings.sighting?, fetched, runs.known]

theorem attended_since {roster : Roster} {later : List Operation} (attended : (s.share id).Attended w g)
    (runs : s.RunsOn id world w roster) (kept : ∀ operation ∈ later, operation ≠ .remove id) :
    ((s.performAll (.tick world :: later)).2.share id).Attended w
      ((g.observe (.ofList roster.ids) world.now).observeAll
        (later.filterMap (Operation.sighting? id))) := by
  have seen : Operation.sighting? id (.tick world) = some ⟨.ofList roster.ids, world.now⟩ := runs.sighting
  have first := attended_perform attended (Operation.noConfusion : Operation.tick world ≠ .remove id)
  rw [seen] at first
  exact attended_performAll first kept

/-- In a tick nothing happens to a workload: no outcome is a decision, nothing is asked of a
provisioner, and neither what it holds nor the latest targets of its engine change. -/
structure Rests (s : Scheduler) (id : String) (world : Surroundings) : Prop where
  refused : ∀ o ∈ (s.tick world).1, o.workload = id → ∃ refusal, o.verdict = .error refusal
  uncalled : ∀ call ∈ (s.tick world).2.1, call.workload ≠ id
  enforced : (s.tick world).2.2.lastEnforced? id = s.lastEnforced? id
  latest : ((s.tick world).2.2.registry.get? id).map Engine.latest =
    (s.registry.get? id).map Engine.latest

theorem share_tick_of_uncalled (uncalled : ∀ call ∈ (s.tick world).2.1, call.workload ≠ id) :
    (s.tick world).2.2.share id =
      { s.share id with engine := (s.share id).engineAfter id world } := by
  have none_own : (s.tick world).2.1.filter (·.workload = id) = [] :=
    List.filter_eq_nil_iff.mpr fun call made => by simpa using uncalled call made
  show ((s.tick world).2.1.foldl settle { s with registry := s.enginesAfter world }).share id = _
  rw [share_foldl_settle, none_own, ← get?_enginesAfter]
  rfl

theorem rests_of_waiting (attended : (s.share id).Attended w g)
    (waiting : ∀ roster, world.roster id = some roster →
      (g.observe (.ofList roster.ids) world.now).status world.now ≠ .ready) : s.Rests id world := by
  obtain ⟨registered, e, live, rfl⟩ := attended
  have refused : ∀ o ∈ s.outcomes world, o.workload = id → ∃ refusal, o.verdict = .error refusal := by
    rintro o reported rfl
    obtain ⟨other, verdicts, after, -, ran, listed⟩ := mem_outcomes.mp reported
    obtain ⟨statistics, roster, engine, -, known, found, result⟩ := run?_eq_some.mp ran
    cases Option.some.inj (live.symm.trans found)
    apply Engine.exists_refusal (waiting roster known)
    rw [result]
    exact listed
  -- A call is for an applied change, which no refused outcome is.
  have uncalled : ∀ call ∈ (s.tick world).2.1, call.workload ≠ id := by
    intro call made own
    obtain ⟨v, reported, applied⟩ := exists_outcome_of_mem_calls made
    obtain ⟨refusal, verdict⟩ := refused _ reported own
    rw [show v = .error refusal from verdict] at applied
    cases applied
  have settled := share_tick_of_uncalled uncalled
  refine ⟨refused, uncalled, congrArg Share.enforced settled, ?_⟩
  show ((s.tick world).2.2.share id).engine.map Engine.latest = (s.share id).engine.map Engine.latest
  rw [settled, live]
  exact Share.latest_engineAfter registered live waiting

/-- A workload rests from a tick on at which its instances are not those of its cycle before, until
the window that this opens has passed or the workload is removed. The clock may jump back and forth
in the meantime, and anything may be asked of the scheduler. -/
theorem rests_while_cooling {earlier quiet : List Operation} {first : Surroundings}
    {before after : Roster} {window : Duration}
    (previous : (new.performAll earlier).2.RunsOn id first w before)
    (silent : ∀ operation ∈ quiet, operation ≠ .remove id ∧ operation.sighting? id = none)
    (runs : (new.performAll (earlier ++ .tick first :: quiet)).2.RunsOn id world w after)
    (opens : w.cooldown.Opens before.ids after.ids window) :
    (world.now ≤ Cooldown.maxTime →
      (new.performAll (earlier ++ .tick first :: quiet)).2.Rests id world) ∧
    ∀ (between : List Operation) (later : Surroundings),
      (∀ operation ∈ between, operation ≠ .remove id) →
      later.now ≤ min (world.now + window.millis) Cooldown.maxTime →
      (new.performAll (earlier ++ .tick first :: quiet ++ .tick world :: between)).2.Rests id later := by
  have equipped : ((new.performAll earlier).2.share id).Equipped :=
    share_induction Share.equipped_empty (fun _ operation equipped => equipped.perform id operation)
      earlier
  obtain ⟨g, start, windows⟩ := equipped w previous.registered
  -- What the gate has seen when the instances change, and what it has become.
  have unseen : quiet.filterMap (Operation.sighting? id) = [] :=
    List.filterMap_eq_nil_iff.mpr fun operation mem => (silent operation mem).2
  have seen := attended_since start previous fun operation mem => (silent operation mem).1
  rw [← performAll_append, unseen] at seen
  have shut : ((g.observe (.ofList before.ids) first.now).observe (.ofList after.ids)
      world.now).ShutUntil (min (world.now + window.millis) Cooldown.maxTime) := by
    apply Cooldown.Gate.shutUntil_observe (Cooldown.Gate.previous_observe _ _ _)
    rw [Cooldown.Gate.windows_observe, windows]
    exact opens
  constructor
  · intro possible
    refine rests_of_waiting seen fun roster known => ?_
    cases Option.some.inj (runs.known.symm.trans known)
    exact shut.status_ne_ready (by omega)
  · intro between later kept early
    have attended := attended_since seen runs kept
    rw [← performAll_append] at attended
    refine rests_of_waiting attended fun roster _ => ?_
    have still := shut.observeAll (between.filterMap (Operation.sighting? id))
    exact (still.observe (.ofList roster.ids) later.now).status_ne_ready early

/-- The listed instances report a value, and every target is provisioned. -/
def watching (value : Int64) (instances : List String) (now : Nat) : Surroundings where
  now
  statistics _ := some (.ofList [(⟨"cpu", .avg, .ofMillis 300000, none, none⟩,
    ⟨.integer value, .ofList instances⟩)])
  roster _ := some (.ofList (instances.map fun i => (i, "east")))
  provision := some fun _ _ _ => true

/-- An instance joins while nobody looks. The pair then rests for two minutes, at times before the
instance joined too, and not a millisecond longer. -/
theorem rests_while_cooling_pair :
    let first := watching 50 ["old"] 5000
    let quiet := [.tick { watching 95 [] 6000 with roster := fun _ => none },
      .setLastEnforced "pair" .whole 0]
    let world := watching 95 ["old", "new"] 7000
    let before := (new.performAll ([.add pair] ++ .tick first :: quiet)).2
    let after := (new.performAll ([.add pair] ++ .tick first :: quiet ++ .tick world :: [.add pair])).2
    (new.performAll [.add pair]).2.RunsOn "pair" first pair (.ofList [("old", "east")]) ∧
      (∀ operation ∈ quiet, operation ≠ .remove "pair" ∧ operation.sighting? "pair" = none) ∧
      before.RunsOn "pair" world pair (.ofList [("old", "east"), ("new", "east")]) ∧
      before.Rests "pair" world ∧
      after.Rests "pair" (watching 95 ["old", "new"] 0) ∧
      after.Rests "pair" (watching 95 ["old", "new"] 127000) ∧
      (after.tick (watching 95 ["old", "new"] 127001)).2.1 ≠ [] := by
  intro first quiet world before after
  have previous : (new.performAll [.add pair]).2.RunsOn "pair" first pair (.ofList [("old", "east")]) :=
    ⟨by decide +kernel, by decide +kernel, rfl⟩
  have silent : ∀ operation ∈ quiet, operation ≠ .remove "pair" ∧ operation.sighting? "pair" = none := by
    simp [quiet, Operation.sighting?, Surroundings.sighting?]
  have runs : before.RunsOn "pair" world pair (.ofList [("old", "east"), ("new", "east")]) :=
    ⟨by decide +kernel, by decide +kernel, rfl⟩
  have opens : pair.cooldown.Opens (Roster.ofList [("old", "east")]).ids
      (Roster.ofList [("old", "east"), ("new", "east")]).ids pair.cooldown.add :=
    .added (i := "new") (by decide +kernel) (by decide +kernel)
  obtain ⟨now, afterwards⟩ := rests_while_cooling previous silent runs opens
  refine ⟨previous, silent, runs, now (by decide), ?_, ?_, by decide +kernel⟩
  · exact afterwards [.add pair] _ (by simp) (by decide)
  · exact afterwards [.add pair] _ (by simp) (by decide)

end Scheduler

end Autoscaler
