import Autoscaler.Console.Command

/-!
# Command line arguments

A command line names a subcommand and gives its options, by a long name or by a letter. The value of
an option stands in the same word or in the next, which then must not look like an option. No option
may be given twice.
-/

namespace Autoscaler

/-- What the value of an option has to be. -/
inductive ValueKind where
  | anything
  | path
  | duration
  | count
deriving DecidableEq

/-- An option; one without a kind of value is a switch. -/
structure Parameter where
  name : String
  letter : Option Char
  kind : Option ValueKind
deriving DecidableEq

/-- A subcommand and its options. -/
structure Subcommand where
  name : String
  parameters : List Parameter
deriving DecidableEq

/-- What a command line asks for. -/
inductive Request where
  | perform (command : Command)
  | help
  | version (program : String)
deriving DecidableEq

namespace Request

/-- The name of the program. -/
def program : String := "zonescale"

/-- The name of the program and its version. -/
def versionText (program : String) : String := program ++ " 0.1.0"

/-- The switch that every subcommand has. -/
def logJson : Parameter := ⟨"log-json", none, none⟩

/-- The option for the settings file. -/
def config : Parameter := ⟨"config", some 'c', some .path⟩

/-- The option for a record. -/
def snapshot : Parameter := ⟨"snapshot", some 's', some .path⟩

/-- The option for a workload. -/
def workload : Parameter := ⟨"workload", some 'w', some .anything⟩

/-- The subcommands. -/
def subcommands : List Subcommand :=
  [⟨"init", [logJson, ⟨"path", some 'p', some .path⟩, workload, ⟨"force", none, none⟩]⟩,
    ⟨"validate", [logJson, config]⟩,
    ⟨"evaluate", [logJson, config, workload, snapshot, ⟨"format", some 'f', some .anything⟩]⟩,
    ⟨"run", [logJson, config, snapshot, ⟨"interval", some 'i', some .duration⟩,
      ⟨"ticks", none, some .count⟩]⟩]

/-- A number that fits 64 bits; a plus sign may precede it. -/
def count? (s : String) : Option Nat :=
  let digits := match s.toList with
    | '+' :: rest => rest
    | cs => cs
  let n := Nat.ofDigitChars 10 digits 0
  if digits ≠ [] ∧ digits.all Char.isDigit ∧ n < wordLimit then some n else none

/-- Whether a value is of a kind. -/
def ValueKind.accepts : ValueKind → String → Bool
  | .anything, _ => true
  | .path, s => s ≠ ""
  | .duration, s => (Duration.parse s).isOk
  | .count, s => (count? s).isSome

/-- A word with the form of an option. -/
def isOptionLike (word : String) : Bool := word.startsWith "-" && word ≠ "-"

/-- What a word stands for among options. -/
inductive Word where
  | help
  | version
  | option (parameter : Parameter) (value : Option String)
  | unknown
deriving DecidableEq

/-- A word with a long name, without its hyphens. A value follows an equals sign. -/
def longWord (parameters : List Parameter) (body : List Char) : Word :=
  let name := String.ofList (body.takeWhile (· ≠ '='))
  let value := match body.dropWhile (· ≠ '=') with
    | [] => none
    | _ :: rest => some (String.ofList rest)
  if name = "help" ∧ value = none then .help
  else if name = "version" ∧ value = none then .version
  else match parameters.find? fun p => p.name = name with
    | some p => if p.kind = none ∧ value ≠ none then .unknown else .option p value
    | none => .unknown

/-- A word with a letter, without its hyphen. What follows the letter is the value. -/
def shortWord (parameters : List Parameter) (letter : Char) (rest : List Char) : Word :=
  if letter = 'h' then .help
  else if letter = 'V' then .version
  else match parameters.find? fun p => p.letter = some letter with
    | some p => .option p (match rest with
      | [] => none
      | '=' :: value => some (String.ofList value)
      | value => some (String.ofList value))
    | none => .unknown

/-- What a word stands for. -/
def word (parameters : List Parameter) (s : String) : Word :=
  match s.toList with
  | '-' :: '-' :: body => longWord parameters body
  | '-' :: letter :: rest => shortWord parameters letter rest
  | _ => .unknown

/-- The options that were given, by their names. -/
abbrev Given := List (String × String)

/-- Adds an option that was not given before and whose value is of its kind. -/
def give? (given : Given) (p : Parameter) (value : String) : Option Given :=
  if (given.lookup p.name).isNone ∧ p.kind.all (ValueKind.accepts · value) then
    some ((p.name, value) :: given)
  else none

/-- What reading options comes to. -/
inductive Options where
  | given (options : Given)
  | help
  | version
  | refused

/-- Reads the options of a subcommand, given the one that still waits for its value. Two hyphens end
the options, and nothing may follow them. -/
def readOptions (parameters : List Parameter) :
    Given → Option Parameter → List String → Options
  | given, none, [] => .given given
  | _, some _, [] => .refused
  | given, some p, value :: rest =>
    if isOptionLike value then .refused
    else match give? given p value with
      | some given => readOptions parameters given none rest
      | none => .refused
  | given, none, s :: rest =>
    if s = "--" then if rest = [] then .given given else .refused
    else match word parameters s with
      | .help => .help
      | .version => .version
      | .unknown => .refused
      | .option p (some value) =>
        match give? given p value with
        | some given => readOptions parameters given none rest
        | none => .refused
      | .option p none =>
        if p.kind.isSome then readOptions parameters given (some p) rest
        else match give? given p "" with
          | some given => readOptions parameters given none rest
          | none => .refused

/-- The command that a subcommand and its options ask for. -/
def command? (subcommand : String) (given : Given) : Option Command :=
  let value := fun name default => (given.lookup name).getD default
  let settings := value "config" "zonescale.toml"
  if subcommand = "init" then
    some (.init (value "path" "zonescale.toml") (value "workload" "default/api")
      (given.lookup "force").isSome)
  else if subcommand = "validate" then some (.validate settings)
  else if subcommand = "evaluate" then do
    return .evaluate settings (← given.lookup "workload") (← given.lookup "snapshot")
      (value "format" "text")
  else if subcommand = "run" then do
    let record ← given.lookup "snapshot"
    let interval ← (Duration.parse (value "interval" "30s")).toOption
    return .run settings record interval ((given.lookup "ticks").bind count?)
  else none

/-- The request of a subcommand's words. -/
def ofSubcommand? (s : Subcommand) (words : List String) : Option Request :=
  match readOptions s.parameters [] none words with
  | .given options => (command? s.name options).map .perform
  | .help => some .help
  | .version => some (.version (program ++ "-" ++ s.name))
  | .refused => none

/-- The request for help on a subcommand, or on help itself. -/
def ofHelp? : List String → Option Request
  | [] => some .help
  | [name] => if name ∈ "help" :: subcommands.map Subcommand.name then some .help else none
  | _ => none

/-- What a command line asks for, given whether the common switch was seen. Nothing is asked for by
words that make no sense. -/
def ofWords? (logged : Bool) : List String → Option Request
  | [] => none
  | s :: rest =>
    match subcommands.find? fun c => c.name = s with
    | some c => ofSubcommand? c rest
    | none =>
      if s = "help" then ofHelp? rest
      else match word [logJson] s with
        | .help => some .help
        | .version => some (.version program)
        | .option _ _ => if logged then none else ofWords? true rest
        | .unknown => none

/-- What a command line asks for. -/
def ofArguments? (words : List String) : Option Request := ofWords? false words

end Request

end Autoscaler
