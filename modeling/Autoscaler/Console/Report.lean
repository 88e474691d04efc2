import Autoscaler.Document.Quantity
import Autoscaler.Enforcement.Decision

/-!
# Reports

The verdict on a zone set as a line for people and as a document.
-/

namespace Autoscaler

/-- The name of a direction. -/
def Direction.name : Direction → String
  | .up => "up"
  | .down => "down"

/-- The name of a reason. -/
def Steady.name : Steady → String
  | .withinThresholds => "within_thresholds"
  | .atMinimum => "at_minimum"

/-- The document of a decision. -/
def Decision.toDocument : Decision → Document
  | .applied old new direction => .table
      [("outcome", .text "applied"), ("from", old.toDocument), ("to", new.toDocument),
        ("direction", .text direction.name)]
  | .unchanged capacity reason => .table
      [("outcome", .text "unchanged"), ("capacity", capacity.toDocument),
        ("reason", .text reason.name)]

/-- The document of a refusal. -/
def Refusal.toDocument (r : Refusal) : Document :=
  .table [("kind", .text r.kind.name), ("message", .text r.message),
    ("retryable", .boolean r.isRetryable)]

/-- The verdict on a zone set. -/
structure Report where
  zoneSet : ZoneSet
  verdict : Verdict
deriving DecidableEq

namespace Report

/-- A mark, the zone set, and what was decided or why nothing was. -/
def text (r : Report) : String :=
  let z := r.zoneSet.text
  match r.verdict with
  | .ok (.applied old new .up) => "↑ " ++ z ++ ": scale up " ++ old.text ++ " -> " ++ new.text
  | .ok (.applied old new .down) => "↓ " ++ z ++ ": scale down " ++ old.text ++ " -> " ++ new.text
  | .ok (.unchanged capacity .withinThresholds) =>
    "= " ++ z ++ ": " ++ capacity.text ++ " (within thresholds)"
  | .ok (.unchanged capacity .atMinimum) =>
    "= " ++ z ++ ": " ++ capacity.text ++ " (already at minimum)"
  | .error refusal =>
    (if refusal.isRetryable then "… " else "✗ ") ++ z ++ ": " ++ refusal.message

/-- The document of a report. -/
def toDocument (r : Report) : Document :=
  .table <| ("zone_set", r.zoneSet.toDocument) ::
    match r.verdict with
    | .ok decision => [("decision", decision.toDocument)]
    | .error refusal => [("error", refusal.toDocument)]

end Report

end Autoscaler
