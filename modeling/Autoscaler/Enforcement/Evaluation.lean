import Autoscaler.Policy
import Autoscaler.Statistic.Roster
import Autoscaler.Statistic.Snapshot

/-!
# Evaluation of rules

Each rule's statistic is held against its thresholds. A reading is trusted only when every instance
that it is meant to cover has contributed to it, and there is such an instance.
-/

namespace Autoscaler

/-- A rule with a value that crossed one of its thresholds. -/
structure Breach where
  rule : Rule
  value : StatValue
deriving DecidableEq

/-- The statistic's identifier and the value. -/
def Breach.text (b : Breach) : String := b.rule.statistic.text ++ "=" ++ b.value.display

/-- Why a reading cannot be trusted yet. -/
inductive Unavailable where
  | noSample
  | noInstances
  | noBreakdown (instances : List String)
deriving DecidableEq

/-- The reason for people. -/
def Unavailable.text : Unavailable → String
  | .noSample => "no sample reported"
  | .noInstances => "no known instances in scope"
  | .noBreakdown instances => "no breakdown from instances " ++ ", ".intercalate instances

/-- Why a rule cannot be evaluated. -/
inductive RuleFault where
  | notYetAvailable (statistic : StatisticId) (reason : Unavailable)
  | format (statistic : StatisticId) (value threshold : StatValue) (cause : CompareError)
deriving DecidableEq

/-- The message of a fault. -/
def RuleFault.message : RuleFault → String
  | .notYetAvailable s reason => "statistic " ++ s.text ++ " not yet available: " ++ reason.text
  | .format s value threshold cause => "cannot compare " ++ s.text ++ " value " ++ value.display ++
      " with threshold " ++ threshold.display ++ ": " ++ cause.message

/-- Where a value stands between the thresholds of a rule. -/
inductive Standing where
  | below
  | within
  | above
deriving DecidableEq

namespace Rule

/-- The value of the rule's statistic, if it can be trusted. -/
def trustedValue (r : Rule) (statistics : Snapshot) (roster : Roster) :
    Except RuleFault StatValue :=
  match statistics.get? r.statistic with
  | none => .error (.notYetAvailable r.statistic .noSample)
  | some reading =>
    let required := roster.inScope r.statistic
    let missing := required.filter fun i => !reading.contributors.contains i
    if required = [] then .error (.notYetAvailable r.statistic .noInstances)
    else if missing ≠ [] then .error (.notYetAvailable r.statistic (.noBreakdown missing))
    else .ok reading.value

/-- How a value compares with a threshold of the rule. -/
def orderAgainst (r : Rule) (value threshold : StatValue) : Except RuleFault Ordering :=
  match value.order threshold with
  | .ok o => .ok o
  | .error cause => .error (.format r.statistic value threshold cause)

/-- Where a value stands. The high threshold is looked at only when the value is not below the
low one. -/
def standing (r : Rule) (value : StatValue) : Except RuleFault Standing := do
  if (← r.orderAgainst value r.low) = .lt then return .below
  if (← r.orderAgainst value r.high) = .gt then return .above
  return .within

/-- The trusted value of a rule and where it stands. -/
def assess (r : Rule) (statistics : Snapshot) (roster : Roster) :
    Except RuleFault (Breach × Standing) := do
  let value ← r.trustedValue statistics roster
  return (⟨r, value⟩, ← r.standing value)

end Rule

/-- The rules below their low threshold and those above their high one, each in rule order. -/
structure Evaluation where
  belowLow : List Breach
  aboveHigh : List Breach
deriving DecidableEq

namespace Evaluation

/-- Some rule asks for less and another for more. -/
def isConflict (e : Evaluation) : Bool := !e.belowLow.isEmpty && !e.aboveHigh.isEmpty

/-- The assessments with one standing. -/
def select (s : Standing) (assessed : List (Breach × Standing)) : List Breach :=
  (assessed.filter (·.2 = s)).map Prod.fst

/-- Sorts assessed rules by where they stand. -/
def ofAssessed (assessed : List (Breach × Standing)) : Evaluation :=
  ⟨select .below assessed, select .above assessed⟩

end Evaluation

/-- Evaluates rules in order, up to the first that cannot be evaluated. -/
def evaluate (rules : List Rule) (statistics : Snapshot) (roster : Roster) :
    Except RuleFault Evaluation := do
  return .ofAssessed (← rules.mapM fun r => r.assess statistics roster)

end Autoscaler
