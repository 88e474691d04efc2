import Autoscaler.Proofs.Enforcement.Cooldown

/-!
# Histories of an engine

An engine may be asked to enforce a policy or a cycle, in any order. Of all that it was asked before,
an answer depends on nothing but the instances that were seen and the times at which they were seen
(`answer_depends_on_sightings`): not on policies, cycles and statistics, not on what was planned,
applied or refused, and not on instances that were seen twice in a row.
-/

namespace Autoscaler

/-- What an engine may be asked to enforce: the policy of a workload that is not divided, or a
cycle. -/
inductive Aim where
  | policy (p : Policy)
  | cycle (c : Cycle)

/-- What an engine is asked to enforce, and what is known when it is asked. -/
structure Demand where
  aim : Aim
  statistics : Snapshot
  roster : Roster
  now : Nat

/-- What an engine answers: a verdict on the whole workload, or one on each zone set. -/
inductive Answer where
  | whole (v : Verdict)
  | each (verdicts : List (ZoneSet × Verdict))
deriving DecidableEq

/-- What the gate of an engine sees of a demand. -/
def Demand.sighting (x : Demand) : Cooldown.Sighting := ⟨.ofList x.roster.ids, x.now⟩

namespace Engine

/-- Meets a demand. -/
def meet (e : Engine) (x : Demand) : Answer × Engine :=
  match x.aim with
  | .policy p =>
    let (v, after) := e.enforce p x.statistics x.roster x.now
    (.whole v, after)
  | .cycle c =>
    let (verdicts, after) := e.enforceCycle c x.statistics x.roster x.now
    (.each verdicts, after)

/-- Meets demands in turn. -/
def meetAll (e : Engine) : List Demand → List Answer × Engine
  | [] => ([], e)
  | x :: rest =>
    let (answer, e) := e.meet x
    let (answers, e) := e.meetAll rest
    (answer :: answers, e)

theorem gate_meet (e : Engine) (x : Demand) :
    (e.meet x).2.gate = e.gate.observeAll [x.sighting] := by
  cases aim : x.aim <;> simp only [meet, aim] <;> rfl

theorem gate_meetAll (past : List Demand) (e : Engine) :
    (e.meetAll past).2.gate = e.gate.observeAll (past.map Demand.sighting) := by
  induction past generalizing e with
  | nil => rfl
  | cons x rest ih =>
    have first := gate_meet e x
    have later := ih (e.meet x).2
    rw [first] at later
    exact later

/-- Engines meet a demand alike: with one answer, and after a cycle with one plan. -/
structure MeetAlike (x : Demand) (e f : Engine) : Prop where
  answer : (e.meet x).1 = (f.meet x).1
  planned : ∀ c, x.aim = .cycle c → (e.meet x).2.planned = (f.meet x).2.planned

theorem meetAlike_of_gate_eq {e f : Engine} (same : e.gate = f.gate) (x : Demand) :
    MeetAlike x e f := by
  constructor
  · cases aim : x.aim <;> simp [meet, aim, enforce, enforceCycle, observed, same]
  · intro c aim
    simp [meet, aim, enforceCycle, observed, same]

/-- Whatever an engine was asked before, it meets a demand alike if it has seen the same instances at
the same times, and also if it was not asked where it saw the instances that it had just seen. -/
theorem answer_depends_on_sightings (e : Engine) (x : Demand) :
    (∀ first second : List Demand, first.map Demand.sighting = second.map Demand.sighting →
      MeetAlike x (e.meetAll first).2 (e.meetAll second).2) ∧
    ∀ (before after : List Demand) (seen again : Demand),
      again.sighting.instances = seen.sighting.instances →
      MeetAlike x (e.meetAll (before ++ seen :: again :: after)).2
        (e.meetAll (before ++ seen :: after)).2 := by
  constructor
  · intro first second same
    apply meetAlike_of_gate_eq
    rw [gate_meetAll, gate_meetAll, same]
  · intro before after seen again same
    apply meetAlike_of_gate_eq
    -- The gates differ by one sighting of instances that had just been seen.
    simp [gate_meetAll, Cooldown.Gate.observeAll, same, Cooldown.Gate.observe_observe]

/-- A demand on the policy of a workload that holds 1000 of memory and may hold up to 2000, where the
listed instances report one value. -/
def asking (form : Policy → Aim) (value : Int64) (instances : List String) (now : Nat) : Demand where
  aim := form {
    current := .single "memory" 1000
    rules := [⟨⟨"cpu", .avg, .ofMillis 300000, none, none⟩, .integer 20, .integer 80⟩]
    increaseStep := .single "memory" 300
    decreaseStep := .single "memory" 300
    maxCapacity := .single "memory" 2000
    minCapacity := .single "memory" 500 }
  statistics := .ofList [(⟨"cpu", .avg, .ofMillis 300000, none, none⟩,
    ⟨.integer value, .ofList instances⟩)]
  roster := .ofList (instances.map fun i => (i, "east"))
  now

/-- One engine has grown the workload and was asked twice about two instances, the other has refused a
cycle of a policy without rules. A second instance holds both back. -/
theorem answer_depends_on_sightings_refused :
    let e := Engine.new "web" .default
    let grow := asking .policy 95 ["vm"] 0
    let refuse := asking (fun p => .cycle ⟨.insert ∅ .whole { p with rules := [] }, 0, 0, .empty⟩) 50
      ["vm"] 0
    let joined := asking .policy 95 ["vm", "new"] 1000
    let again := asking .policy 5 ["vm", "new"] 9000
    let x := asking .policy 95 ["vm", "new"] 121000
    [grow, joined].map Demand.sighting = [refuse, joined].map Demand.sighting ∧
      again.sighting.instances = joined.sighting.instances ∧
      MeetAlike x (e.meetAll [grow, joined]).2 (e.meetAll [refuse, joined]).2 ∧
      MeetAlike x (e.meetAll [grow, joined, again]).2 (e.meetAll [grow, joined]).2 ∧
      (e.meetAll [grow]).1 ≠ (e.meetAll [refuse]).1 ∧
      ((e.meetAll [refuse, joined]).2.meet x).1 = .whole (.error (.cooldown .zero)) := by
  refine ⟨rfl, rfl, ?_, ?_, by decide +kernel, by decide +kernel⟩
  · exact (answer_depends_on_sightings _ _).1 _ _ rfl
  · exact (answer_depends_on_sightings _ _).2 [_] [] _ _ rfl

end Engine

end Autoscaler
