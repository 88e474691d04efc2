import Autoscaler.Fleet.Run

/-!
# Histories of a scheduler

Everything that may be asked of a scheduler, in any order: workloads come and go, what their zone sets
hold is overridden, and ticks pass. A history is a list of such operations, performed from a scheduler
without workloads on.
-/

namespace Autoscaler

/-- What may be asked of a scheduler. -/
inductive Operation where
  | add (w : Workload)
  | remove (id : String)
  | setLastEnforced (id : String) (z : ZoneSet) (c : Capacity)
  | tick (world : Surroundings)

/-- What a scheduler answers. -/
inductive Response where
  | added (result : Except RegistryError Unit)
  | removed (result : Except RegistryError Workload)
  | noted
  | ticked (tick : Tick)

/-- An operation and the answer to it. -/
structure Event where
  operation : Operation
  response : Response

namespace Scheduler

/-- Performs an operation. One that is refused changes nothing. -/
def perform (s : Scheduler) : Operation → Response × Scheduler
  | .add w =>
    match s.add w with
    | .ok after => (.added (.ok ()), after)
    | .error fault => (.added (.error fault), s)
  | .remove id =>
    match s.remove id with
    | .ok (w, after) => (.removed (.ok w), after)
    | .error fault => (.removed (.error fault), s)
  | .setLastEnforced id z c => (.noted, s.setLastEnforced id z c)
  | .tick world =>
    let (outcomes, calls, after) := s.tick world
    (.ticked ⟨outcomes, calls⟩, after)

/-- Performs operations in turn: what happened, and the scheduler afterwards. -/
def performAll (s : Scheduler) : List Operation → List Event × Scheduler
  | [] => ([], s)
  | operation :: rest =>
    let (response, s) := s.perform operation
    let (events, s) := s.performAll rest
    (⟨operation, response⟩ :: events, s)

/-- What holds of a scheduler and is kept by every operation holds throughout its histories. -/
theorem performAll_induction {P : Scheduler → Prop}
    (step : ∀ s operation, P s → P (s.perform operation).2) (history : List Operation) {s : Scheduler}
    (start : P s) : P (s.performAll history).2 := by
  induction history generalizing s with
  | nil => exact start
  | cons operation rest ih => exact ih (step s operation start)

end Scheduler

end Autoscaler
