import Autoscaler.Capacity.Basic
import Autoscaler.Statistic.Id
import Autoscaler.Statistic.Value

/-!
# Scaling policies

A rule holds a statistic against a low and a high threshold. A policy says how far a zone set may
grow and shrink, in what steps, and by which rules. A policy with a fault is not to be enforced.
-/

namespace Autoscaler

/-- A statistic with the thresholds that ask for less and for more capacity. -/
structure Rule where
  statistic : StatisticId
  low : StatValue
  high : StatValue
deriving DecidableEq

namespace Rule

/-- The same statistic with the same thresholds. -/
def agrees (a b : Rule) : Bool :=
  a.statistic == b.statistic && a.low.agrees b.low && a.high.agrees b.high

/-- The low threshold is above the high one. Thresholds that have no order are not inverted. -/
def isInverted (r : Rule) : Bool :=
  match r.low.order r.high with
  | .ok .gt => true
  | _ => false

end Rule

/-- How the capacity of one zone set is decided. -/
structure Policy where
  current : Capacity
  rules : List Rule
  increaseStep : Capacity
  decreaseStep : Capacity
  maxCapacity : Capacity
  minCapacity : Capacity
deriving DecidableEq

/-- What is wrong with a policy. -/
inductive PolicyError where
  | noRules
  | duplicateRule (statistic : StatisticId)
  | zeroIncreaseStep
  | zeroDecreaseStep
  | zeroMaxCapacity
  | zeroMinCapacity
  | minAboveMax (dimension : String)
  | invertedThresholds (statistic : StatisticId)
deriving DecidableEq

/-- The message of an error. -/
def PolicyError.message : PolicyError → String
  | .noRules => "policy has no scaling rules"
  | .duplicateRule s => "scaling rule for " ++ s.text ++ " appears more than once"
  | .zeroIncreaseStep => "increase step must be non-zero"
  | .zeroDecreaseStep => "decrease step must be non-zero"
  | .zeroMaxCapacity => "maximum capacity must be non-zero"
  | .zeroMinCapacity => "minimum capacity must be non-zero"
  | .minAboveMax d => "minimum capacity exceeds maximum capacity in dimension " ++ Text.quoted d
  | .invertedThresholds s =>
    "scaling rule for " ++ s.text ++ " has its low threshold above its high threshold"

namespace Policy

/-- The first rule that agrees with one before it. -/
def repeatedRule? (rules : List Rule) : Option Rule :=
  (rules.zipIdx.find? fun (r, i) => (rules.take i).any r.agrees).map Prod.fst

/-- The first fault of a policy. -/
def fault? (p : Policy) : Option PolicyError :=
  if p.rules = [] then some .noRules
  else match repeatedRule? p.rules with
  | some r => some (.duplicateRule r.statistic)
  | none =>
    if p.increaseStep.isZero then some .zeroIncreaseStep
    else if p.decreaseStep.isZero then some .zeroDecreaseStep
    else if p.maxCapacity.isZero then some .zeroMaxCapacity
    else if p.minCapacity.isZero then some .zeroMinCapacity
    else match p.minCapacity.firstExceeding? p.maxCapacity with
    | some d => some (.minAboveMax d)
    | none => (p.rules.find? Rule.isInverted).map fun r => .invertedThresholds r.statistic

/-- The policy for another current capacity. -/
def withCurrent (p : Policy) (c : Capacity) : Policy := { p with current := c }

end Policy

end Autoscaler
