import Autoscaler.Number.Word

/-!
# Durations

Whole nanoseconds, at most 2^64 - 1 seconds and 999999999 nanoseconds, and their text: the parts
that are not zero from years down to nanoseconds, `1h 30m`.
-/

namespace Autoscaler

/-- A second in nanoseconds. -/
def Duration.second : Nat := 1000000000

/-- A length of time in nanoseconds, of less than 2^64 seconds. -/
structure Duration where
  nanos : Nat
  nanos_lt : nanos < wordLimit * Duration.second
deriving DecidableEq

namespace Duration

/-- Nothing. -/
def zero : Duration := ⟨0, by decide⟩

/-- Whole seconds and nanoseconds that fit. -/
def ofSeconds? (seconds nanos : Nat) : Option Duration :=
  if h : seconds * second + nanos < wordLimit * second then some ⟨seconds * second + nanos, h⟩
  else none

/-- Some minutes, for constants. -/
def minutes (n : Fin 1000) : Duration :=
  ⟨n * 60 * second, by have := n.isLt; simp only [second, wordLimit]; omega⟩

/-- Whole milliseconds, at most 2^64 - 1 of them. -/
def ofMillis (n : Nat) : Duration :=
  ⟨min n (wordLimit - 1) * 1000000, by simp only [second, wordLimit]; omega⟩

/-- The whole seconds. -/
def seconds (d : Duration) : Nat := d.nanos / second

/-- The nanoseconds past the last whole second. -/
def subsecond (d : Duration) : Nat := d.nanos % second

/-- The whole milliseconds. -/
def millis (d : Duration) : Nat := d.nanos / 1000000

/-- The length of a year, 365.25 days, in seconds. -/
def yearSeconds : Nat := 31557600

/-- The length of a month, 30.44 days, in seconds. -/
def monthSeconds : Nat := 2630016

/-- How many of each unit a duration holds, from the longest unit down. -/
def parts (d : Duration) : List (Nat × String) :=
  let inYear := d.seconds % yearSeconds
  let inMonth := inYear % monthSeconds
  let inDay := inMonth % 86400
  [(d.seconds / yearSeconds, "year"), (inYear / monthSeconds, "month"), (inMonth / 86400, "day"),
    (inDay / 3600, "h"), (inDay % 3600 / 60, "m"), (inDay % 60, "s"),
    (d.subsecond / 1000000, "ms"), (d.subsecond / 1000 % 1000, "us"), (d.subsecond % 1000, "ns")]

/-- A count and its unit; years, months and days have a plural. -/
def partText (part : Nat × String) : String :=
  toString part.1 ++ part.2 ++
    if part.2 ∈ ["year", "month", "day"] ∧ 1 < part.1 then "s" else ""

/-- The parts that are not zero with blanks between them, or `0s`. -/
def text (d : Duration) : String :=
  if d.nanos = 0 then "0s"
  else " ".intercalate ((d.parts.filter (·.1 ≠ 0)).map partText)

end Duration

end Autoscaler
