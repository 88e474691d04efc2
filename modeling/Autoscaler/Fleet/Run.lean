import Autoscaler.Fleet.Scheduler

/-!
# Runs of a scheduler

Ticks one after the other. Each has surroundings of its own, so that time, statistics and the luck
of provisioning may change from tick to tick.
-/

namespace Autoscaler

/-- What a tick did. -/
structure Tick where
  outcomes : List Outcome
  calls : List Call
deriving DecidableEq

/-- What ticks in the given surroundings do, and the scheduler after them. -/
def Scheduler.run (s : Scheduler) : List Surroundings → List Tick × Scheduler
  | [] => ([], s)
  | world :: rest =>
    let (outcomes, calls, s) := s.tick world
    let (ticks, s) := s.run rest
    (⟨outcomes, calls⟩ :: ticks, s)

/-- How many ticks come before a stop, the first of them one interval after the start. -/
def ticksBefore (stop interval : Duration) : Nat := (stop.nanos - 1) / interval.nanos

end Autoscaler
