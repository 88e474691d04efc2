import Autoscaler.Duration.Basic
import Autoscaler.Capacity.Basic
import Std.Data.ExtTreeSet

/-!
# Cooldown

After an instance has joined or left, statistics do not yet show what the change did. A gate keeps
decisions back until a window has passed since the last such change.
-/

namespace Autoscaler.Cooldown

/-- How long to wait after an instance was added and after one was removed. -/
structure Windows where
  add : Duration
  remove : Duration
deriving DecidableEq

/-- Two minutes after an addition, five after a removal. -/
def Windows.default : Windows := ⟨.minutes 2, .minutes 5⟩

/-- Whether scaling is allowed. -/
inductive Status where
  | ready
  | active (remaining : Duration)
deriving DecidableEq

/-- The largest time in milliseconds. -/
def maxTime : Nat := wordLimit - 1

/-- The state of a workload's cooldown: its windows, the instances at the last check, and the time
in milliseconds at which the cooldown ends. -/
structure Gate where
  windows : Windows
  previous : Option (Std.ExtTreeSet String)
  expiresAt : Option Nat
deriving DecidableEq

namespace Gate

/-- A gate that has seen no instances yet. -/
def new (windows : Windows) : Gate := ⟨windows, none, none⟩

/-- Some instance is in the first set and not in the second. -/
def exceeds (a b : Std.ExtTreeSet String) : Bool := a.toList.any fun i => !b.contains i

theorem exceeds_eq_false {a b : Std.ExtTreeSet String} :
    exceeds a b = false ↔ ∀ i ∈ a, i ∈ b := by
  simp only [exceeds, List.any_eq_false, Std.ExtTreeSet.mem_toList, Bool.not_eq_true,
    Bool.not_eq_false', Std.ExtTreeSet.contains_iff_mem]

/-- The end of a window that starts now, in whole milliseconds and at most `maxTime`. -/
def deadline (now : Nat) (window : Duration) : Nat := min (now + min window.millis maxTime) maxTime

/-- Moves the end of the cooldown to a deadline, never back. -/
def extend (now : Nat) (window : Duration) (expiresAt : Option Nat) : Option Nat :=
  some ((expiresAt.map fun e => max e (deadline now window)).getD (deadline now window))

/-- The gate after the instances of now were seen. -/
def observe (g : Gate) (current : Std.ExtTreeSet String) (now : Nat) : Gate :=
  match g.previous with
  | none => { g with previous := some current }
  | some previous =>
    let added := if exceeds current previous then extend now g.windows.add g.expiresAt
      else g.expiresAt
    let removed := if exceeds previous current then extend now g.windows.remove added else added
    { g with previous := some current, expiresAt := removed }

/-- Whether scaling is allowed at a time. The end of the cooldown still belongs to it. -/
def status (g : Gate) (now : Nat) : Status :=
  match g.expiresAt with
  | some e => if now ≤ e then .active (.ofMillis (e - now)) else .ready
  | none => .ready

end Gate

end Autoscaler.Cooldown
