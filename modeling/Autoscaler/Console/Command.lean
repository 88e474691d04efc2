import Autoscaler.Console.Folder
import Autoscaler.Console.Report
import Autoscaler.Document.Json.Printer
import Autoscaler.Document.Observation
import Autoscaler.Document.Settings
import Autoscaler.Settings.Resolution

/-!
# Commands

What the four commands do: write settings to start from, validate settings, evaluate one workload
against a record, and run all workloads against a record that is read again at every tick.
-/

namespace Autoscaler

/-- A command with its arguments. -/
inductive Command where
  | init (path workload : String) (force : Bool)
  | validate (settings : String)
  | evaluate (settings workload record format : String)
  /-- Without a number of ticks the command runs until it is interrupted. -/
  | run (settings record : String) (interval : Duration) (ticks : Option Nat)
deriving DecidableEq

/-- Why a command failed. -/
inductive Failure where
  | settings (error : SettingsError)
  | settingsFile (path : String) (error : FileError)
  | recordFile (path : String)
  | recordFormat (path : String)
  | unknownFormat (format : String)
  | undefinedWorkload (workload path : String)
  | unrecordedWorkload (workload : String)
  | alreadyExists (path : String)
  | unwritten (error : FileError)
  | registry (error : RegistryError)
deriving DecidableEq

/-- The message of a failure. -/
def Failure.message : Failure → String
  | .settings error => error.message
  | .settingsFile path error => "failed to read " ++ path ++ ": " ++ error.message
  | .recordFile path => "failed to read snapshot " ++ path
  | .recordFormat path => "invalid snapshot " ++ path
  | .unknownFormat format => "unknown format " ++ Text.quoted format ++ " (expected text or json)"
  | .undefinedWorkload w path => "workload " ++ w ++ " is not defined in " ++ path
  | .unrecordedWorkload w => "snapshot has no entry for workload " ++ w
  | .alreadyExists path => path ++ " already exists (use --force to overwrite)"
  | .unwritten error => error.message
  | .registry error => error.message

/-- What a command that has not failed comes to. -/
inductive Plan where
  | print (text : String)
  /-- Write a file, then print. -/
  | write (path text printed : String)
  /-- Tick, reading the record again each time. -/
  | loop (scheduler : Scheduler) (record : String) (interval : Duration) (ticks : Option Nat)

/-- A text that ends its line. -/
def line (s : String) : String := s ++ "\n"

/-- The workloads of a settings file. -/
def Files.workloads (files : Files) (path : String) : Except Failure (List Workload) := do
  let text ← (files path).mapError (.settingsFile path)
  let settings ← (Settings.ofText text).mapError .settings
  settings.resolve.mapError .settings

/-- The observations of a record. -/
def Files.observations (files : Files) (path : String) : Except Failure Observations := do
  let text ← (files path).mapError fun _ => .recordFile path
  match Observations.ofText? text with
  | some recorded => return recorded
  | none => .error (.recordFormat path)

/-- A workload in one line. -/
def Workload.summary (w : Workload) : String :=
  "✓ " ++ w.id ++ ": " ++ toString w.policy.rules.length ++ " rule(s), zone sets [" ++
    "; ".intercalate (w.zoneSets.map ZoneSet.text) ++ "], per-zone " ++ w.policy.minCapacity.text ++
    ".." ++ w.policy.maxCapacity.text ++ ", total " ++ w.totalMin.text ++ ".." ++ w.totalMax.text

/-- What a tick prints: a line for each outcome, with the number of the tick. -/
def tickText (n : Nat) (outcomes : List Outcome) : String :=
  String.join <| outcomes.map fun o =>
    line ("[tick " ++ toString n ++ "] " ++ o.workload ++ " " ++
      (Report.mk o.zoneSet o.verdict).text)

/-- What a number of ticks print while the record stays the same. -/
def ticksText (recorded : Option Observations) (s : Scheduler) (count : Nat) : String :=
  let ticks := (s.run (List.replicate count (.ofRecord 0 recorded))).1
  String.join ((ticks.zipIdx 1).map fun (t, n) => tickText n t.outcomes)

namespace Command

/-- Plans to write settings to start from. Without force nothing may be at the path yet. -/
def planInit (files : Files) (path workload : String) (force : Bool) : Except Failure Plan := do
  if files.contains path && !force then .error (.alreadyExists path)
  let text ← (Settings.starter workload).text.mapError .settings
  return .write path text (line ("✓ Generated " ++ path))

/-- Plans to print a line for each workload, then their number. -/
def planValidate (files : Files) (path : String) : Except Failure Plan := do
  let workloads ← files.workloads path
  return .print <| String.join (workloads.map fun w => line w.summary) ++
    line (toString workloads.length ++ " workload(s) valid")

/-- Plans to print the reports of one cycle. -/
def planEvaluate (files : Files) (path workload record format : String) :
    Except Failure Plan := do
  if format ≠ "text" ∧ format ≠ "json" then .error (.unknownFormat format)
  let workloads ← files.workloads path
  let some w := workloads.find? fun w => w.id = workload | .error (.undefinedWorkload workload path)
  let recorded ← files.observations record
  let some o := recorded[workload]? | .error (.unrecordedWorkload workload)
  let reports := (w.evaluate o 0).map fun (z, v) => Report.mk z v
  if format = "json" then
    return .print (line (Json.pretty (.list (reports.map Report.toDocument))))
  return .print (line workload ++ String.join (reports.map fun r => line ("  " ++ r.text)))

/-- Plans to tick. -/
def planRun (files : Files) (path record : String) (interval : Duration) (ticks : Option Nat) :
    Except Failure Plan := do
  let workloads ← files.workloads path
  let recorded ← files.observations record
  let scheduler ← (Scheduler.start workloads recorded).mapError .registry
  return .loop scheduler record interval ticks

/-- What a command comes to. -/
def plan (files : Files) : Command → Except Failure Plan
  | .init path workload force => planInit files path workload force
  | .validate settings => planValidate files settings
  | .evaluate settings workload record format => planEvaluate files settings workload record format
  | .run settings record interval ticks => planRun files settings record interval ticks

/-- What a command prints in a folder that nobody else changes, and the folder afterwards. A loop
without a number of ticks is left out. -/
def runIn (folder : Folder) (c : Command) : Except Failure (String × Folder) := do
  match ← c.plan folder.read with
  | .print text => return (text, folder)
  | .write path text printed =>
    return (printed, ← (folder.write path text).mapError .unwritten)
  | .loop scheduler record _ ticks =>
    let recorded := (Files.observations folder.read record).toOption
    return (ticksText recorded scheduler (ticks.getD 0), folder)

end Command

end Autoscaler
