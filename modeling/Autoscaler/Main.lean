import Autoscaler.Console.Arguments
import Std.Time.DateTime.Timestamp

/-!
# The command line

Carries out what the arguments ask for: reads and writes files, prints, waits between ticks.
-/

namespace Autoscaler

/-- Why a system call failed. -/
def FileError.ofSystem : IO.Error → FileError
  | .noFileOrDirectory .. => .notFound
  | .inappropriateType .. => .isFolder
  | e => .other (toString e)

/-- Reads a file. -/
def readFile (path : String) : IO (Except FileError String) := do
  try return .ok (← IO.FS.readFile path)
  catch e => return .error (.ofSystem e)

/-- The paths that a command reads. -/
def Command.paths : Command → List String
  | .init path _ _ => [path]
  | .validate settings => [settings]
  | .evaluate settings _ record _ => [settings, record]
  | .run settings record _ _ => [settings, record]

/-- The time in whole milliseconds since 1970, at most the largest time. -/
def epochMillis : IO Nat := do
  let now ← Std.Time.Timestamp.now
  return min now.toMillisecondsSinceUnixEpoch.toInt.toNat Cooldown.maxTime

/-- Waits for an interval, and at most as long as a clock can be set for. -/
def wait (interval : Duration) : IO Unit :=
  IO.sleep (UInt32.ofNat (min interval.millis 4294967295))

/-- A tick at the present time and with the record as it stands. -/
def tickNow (record : String) (s : Scheduler) : IO (List Outcome × Scheduler) := do
  let content ← readFile record
  let recorded := (Files.observations (fun _ => content) record).toOption
  let (outcomes, _, s) := s.tick (.ofRecord (← epochMillis) recorded)
  return (outcomes, s)

/-- Prints the ticks that are left, an interval apart, the first of them under a given number. -/
def printTicks (record : String) (interval : Duration) (left n : Nat) (s : Scheduler) : IO Unit :=
  match left with
  | 0 => return ()
  | left + 1 => do
    if 1 < n then wait interval
    let (outcomes, s) ← tickNow record s
    IO.print (tickText n outcomes)
    printTicks record interval left (n + 1) s

/-- Ticks after every interval without an end, and prints nothing. -/
partial def tickOn (record : String) (interval : Duration) (s : Scheduler) : IO Unit := do
  wait interval
  let (_, s) ← tickNow record s
  tickOn record interval s

/-- Carries out a plan. -/
def Plan.carryOut : Plan → IO (Except Failure Unit)
  | .print text => do
    IO.print text
    return .ok ()
  | .write path text printed => do
    try
      IO.FS.writeFile path text
      IO.print printed
      return .ok ()
    catch e => return .error (.unwritten (.ofSystem e))
  | .loop scheduler record interval ticks => do
    match ticks with
    | some count => printTicks record interval count 1 scheduler
    | none => tickOn record interval scheduler
    return .ok ()

/-- Carries out a command. -/
def Command.carryOut (c : Command) : IO (Except Failure Unit) := do
  let contents ← c.paths.mapM fun path => return (path, ← readFile path)
  let files : Files := fun path => (contents.lookup path).getD (.error .notFound)
  match c.plan files with
  | .ok plan => plan.carryOut
  | .error failure => return .error failure

/-- How the program is called. -/
def usage : String :=
  "Usage: zonescale [--log-json] <init|validate|evaluate|run> [OPTIONS]\n"

end Autoscaler

open Autoscaler in
/-- Answers 0 for success, 1 for a command that failed and 2 for arguments without sense. -/
def main (args : List String) : IO UInt32 := do
  match Request.ofArguments? args with
  | some .help =>
    IO.print usage
    return 0
  | some (.version program) =>
    IO.println (Request.versionText program)
    return 0
  | some (.perform command) =>
    match ← command.carryOut with
    | .ok _ => return 0
    | .error failure =>
      IO.eprintln ("Error: " ++ failure.message)
      return 1
  | none =>
    IO.eprint usage
    return 2
