import Autoscaler.Duration.Basic
import Autoscaler.Enforcement.Evaluation

/-!
# Decisions

What an enforcement answers for a zone set: a decision on its capacity, or a refusal, after which
the capacity stays as it is.
-/

namespace Autoscaler

/-- Which way a change goes. -/
inductive Direction where
  | up
  | down
deriving DecidableEq

/-- Why capacity stayed the same. -/
inductive Steady where
  /-- No rule crossed a threshold. -/
  | withinThresholds
  /-- A low threshold was crossed at the minimum. -/
  | atMinimum
deriving DecidableEq

/-- A decision on the capacity of a zone set. -/
inductive Decision where
  | unchanged (capacity : Capacity) (reason : Steady)
  | applied (old new : Capacity) (direction : Direction)
deriving DecidableEq

namespace Decision

/-- The capacity that the zone set is to hold. -/
def target : Decision → Capacity
  | .unchanged capacity _ => capacity
  | .applied _ new _ => new

/-- The new capacity, if there is one. -/
def change? : Decision → Option Capacity
  | .unchanged _ _ => none
  | .applied _ new _ => some new

end Decision

/-- Why nothing was decided. -/
inductive Refusal where
  | unevaluated (fault : RuleFault)
  | ruleConflict (belowLow aboveHigh : List Breach)
  | saturated (current maximum : Capacity)
  | cooldown (remaining : Duration)
  | configurationConflict (zoneSet : ZoneSet) (minimum maximum : Capacity) (dimension : String)
  | invalidPolicy (error : PolicyError)
deriving DecidableEq

/-- Kinds of refusals. -/
inductive RefusalKind where
  | retryable
  | format
  | ruleConflict
  | saturation
  | cooldown
  | configuration
  | invalidPolicy
deriving DecidableEq

/-- The name of a kind. -/
def RefusalKind.name : RefusalKind → String
  | .retryable => "retryable"
  | .format => "format"
  | .ruleConflict => "rule_conflict"
  | .saturation => "saturation"
  | .cooldown => "cooldown"
  | .configuration => "configuration"
  | .invalidPolicy => "invalid_policy"

namespace Refusal

/-- The kind of a refusal. -/
def kind : Refusal → RefusalKind
  | .unevaluated (.notYetAvailable ..) => .retryable
  | .unevaluated (.format ..) => .format
  | .ruleConflict .. => .ruleConflict
  | .saturated .. => .saturation
  | .cooldown _ => .cooldown
  | .configurationConflict .. => .configuration
  | .invalidPolicy _ => .invalidPolicy

/-- Whether a later attempt may succeed without anyone changing the configuration. -/
def isRetryable (r : Refusal) : Bool := r.kind = .retryable || r.kind = .cooldown

/-- Breaches with commas between them. -/
def breachesText (bs : List Breach) : String := ", ".intercalate (bs.map Breach.text)

/-- The message of a refusal. -/
def message : Refusal → String
  | .unevaluated fault => fault.message
  | .ruleConflict belowLow aboveHigh => "conflicting rules: below low [" ++ breachesText belowLow ++
      "], above high [" ++ breachesText aboveHigh ++ "]"
  | .saturated current maximum =>
    "capacity " ++ current.text ++ " cannot grow past maximum " ++ maximum.text
  | .cooldown remaining =>
    "membership changed recently, cooldown for another " ++ remaining.text
  | .configurationConflict z minimum maximum dimension => "zone set " ++ z.text ++ ": minimum " ++
      minimum.text ++ " exceeds maximum " ++ maximum.text ++ " in " ++ Text.quoted dimension
  | .invalidPolicy error => "invalid policy: " ++ error.message

end Refusal

/-- The answer of an enforcement for one zone set. -/
abbrev Verdict := Except Refusal Decision

namespace Verdict

instance decidableEq : DecidableEq Verdict
  | .ok a, .ok b => decidable_of_iff (a = b) (by simp)
  | .error a, .error b => decidable_of_iff (a = b) (by simp)
  | .ok _, .error _ => isFalse (by simp)
  | .error _, .ok _ => isFalse (by simp)

/-- The capacity that a zone set plans to hold, its current one where nothing was decided. -/
def plan (v : Verdict) (current : Capacity) : Capacity :=
  match v with
  | .ok d => d.target
  | .error _ => current

/-- The new capacity of an applied change. -/
def change? : Verdict → Option Capacity
  | .ok d => d.change?
  | .error _ => none

end Verdict

namespace Policy

/-- Decides on a capacity between bounds: a step up when some rule is above its high threshold, a
step down when some rule is below its low one, and nothing when rules of both kinds ask. -/
def decide (p : Policy) (minimum maximum : Capacity) (statistics : Snapshot) (roster : Roster) :
    Verdict :=
  match evaluate p.rules statistics roster with
  | .error fault => .error (.unevaluated fault)
  | .ok e =>
    if e.isConflict then .error (.ruleConflict e.belowLow e.aboveHigh)
    else if e.aboveHigh ≠ [] then
      let grown := min (p.current + p.increaseStep) maximum
      if grown = p.current then .error (.saturated p.current maximum)
      else .ok (.applied p.current grown .up)
    else if e.belowLow ≠ [] then
      let shrunk := max (p.current - p.decreaseStep) minimum
      if shrunk = p.current then .ok (.unchanged p.current .atMinimum)
      else .ok (.applied p.current shrunk .down)
    else .ok (.unchanged p.current .withinThresholds)

end Policy

end Autoscaler
