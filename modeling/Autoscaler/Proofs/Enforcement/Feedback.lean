import Autoscaler.Proofs.Enforcement.Deadline
import Autoscaler.Proofs.Enforcement.Steps

/-!
# Enforcement in rounds

Whoever acts on the verdicts of an engine comes back with the capacity that was applied. While rules ask
for one direction and the instances stay the same, as many rounds lead as many steps from the start, as
far as the bound ahead and wherever the start was. A round in which nothing changes is the last one in
which anything could (`feedback_reaches`).
-/

namespace Autoscaler

variable {p : Policy} {direction : Direction}

namespace Policy

/-- Some rule asks for a step in a direction, none for one in the opposite direction, and every rule can
be evaluated. -/
def Urges (p : Policy) (statistics : Snapshot) (roster : Roster) (direction : Direction) : Prop :=
  ∃ e, evaluate p.rules statistics roster = .ok e ∧ e.asking direction ≠ [] ∧
    e.asking direction.opposite = []

/-- What so many steps lead to in a dimension, cut short by the bound ahead. -/
def reached (p : Policy) (steps : Nat) (d : String) : Direction → Nat
  | .up => min (p.current.get d + steps * p.increaseStep.get d) (p.maxCapacity.get d)
  | .down => max (p.current.get d - steps * p.decreaseStep.get d) (p.minCapacity.get d)

theorem get_stepped (d : String) :
    (p.stepped p.minCapacity p.maxCapacity direction).get d = p.reached 1 d direction := by
  have kept := p.maxCapacity.get_le d
  cases direction with
  | up =>
    simp only [stepped, reached, Capacity.get_min, Capacity.get_add]
    omega
  | down => simp only [stepped, reached, Capacity.get_max, Capacity.get_sub, Nat.one_mul]

/-- One more step, from where so many have led. -/
theorem reached_succ {c : Capacity} {steps : Nat} {d : String}
    (there : c.get d = p.reached steps d direction) :
    (p.withCurrent c).reached 1 d direction = p.reached (steps + 1) d direction := by
  cases direction with
  | up =>
    simp only [reached, withCurrent, Nat.succ_mul] at there ⊢
    omega
  | down =>
    simp only [reached, withCurrent, Nat.succ_mul] at there ⊢
    omega

theorem getD_change?_advance (minimum maximum : Capacity) :
    (p.advance minimum maximum direction).change?.getD p.current = p.stepped minimum maximum direction := by
  rcases p.advance_cases minimum maximum direction with ⟨same, halts⟩ | ⟨-, moves⟩
  · rw [halts, same]
    cases direction <;> rfl
  · rw [moves]
    rfl

theorem advance_eq_halted_iff (minimum maximum : Capacity) :
    p.advance minimum maximum direction = p.halted maximum direction ↔
      p.stepped minimum maximum direction = p.current := by
  rcases p.advance_cases minimum maximum direction with ⟨same, halts⟩ | ⟨moved, moves⟩
  · exact iff_of_true halts same
  · refine iff_of_false ?_ moved
    rw [moves]
    cases direction <;> simp [halted]

end Policy

/-- What is known in a round, and when it is. -/
structure Round where
  statistics : Snapshot
  now : Nat

namespace Engine

/-- The policy and the engine after rounds of enforcement on the same instances. A round starts from what
the one before it has applied, or from the same capacity if nothing was. -/
def feedback (e : Engine) (p : Policy) (roster : Roster) (rounds : Nat → Round) : Nat → Policy × Engine
  | 0 => (p, e)
  | n + 1 =>
    let (q, f) := e.feedback p roster rounds n
    let (v, after) := f.enforce q (rounds n).statistics roster (rounds n).now
    (q.withCurrent (v.change?.getD q.current), after)

/-- The capacity after so many rounds. -/
def heldAfter (e : Engine) (p : Policy) (roster : Roster) (rounds : Nat → Round) (n : Nat) : Capacity :=
  (e.feedback p roster rounds n).1.current

/-- The verdict of the round that comes after so many others. -/
def verdictAfter (e : Engine) (p : Policy) (roster : Roster) (rounds : Nat → Round) (n : Nat) : Verdict :=
  ((e.feedback p roster rounds n).2.enforce (e.feedback p roster rounds n).1 (rounds n).statistics roster
    (rounds n).now).1

variable {e : Engine} {roster : Roster} {rounds : Nat → Round} {n : Nat}

theorem policy_feedback :
    (e.feedback p roster rounds n).1 = p.withCurrent (e.heldAfter p roster rounds n) := by
  induction n with
  | zero => rfl
  | succ n ih =>
    show (e.feedback p roster rounds n).1.withCurrent (e.heldAfter p roster rounds (n + 1)) = _
    rw [ih]
    rfl

theorem heldAfter_succ : e.heldAfter p roster rounds (n + 1) =
    (e.verdictAfter p roster rounds n).change?.getD (e.heldAfter p roster rounds n) := rfl

theorem gate_feedback : (e.feedback p roster rounds n).2.gate = e.gate.observeAll
    ((List.range n).map fun i => ⟨.ofList roster.ids, (rounds i).now⟩) := by
  induction n with
  | zero => rfl
  | succ n ih =>
    rw [List.range_succ, List.map_append, Cooldown.Gate.observeAll_append, ← ih]
    rfl

/-- While the instances stay the same, no cooldown begins. -/
theorem statusAt_feedback {workload : String} {windows : Cooldown.Windows} (now : Nat) :
    ((new workload windows).feedback p roster rounds n).2.statusAt roster now = .ready := by
  let seen : List Cooldown.Sighting := (List.range n).map fun i => ⟨.ofList roster.ids, (rounds i).now⟩
  have gate : ((new workload windows).feedback p roster rounds n).2.observed roster now =
      windows.gate (seen ++ [⟨.ofList roster.ids, now⟩]) := by
    rw [Cooldown.Windows.gate_append, observed, gate_feedback]
    rfl
  have same : Cooldown.Unchanging (seen ++ [⟨.ofList roster.ids, now⟩]) := by
    have all : ∀ a ∈ seen ++ [⟨.ofList roster.ids, now⟩], a.instances = .ofList roster.ids := by
      intro a mem
      rcases List.mem_append.mp mem with earlier | last
      · obtain ⟨i, -, rfl⟩ := List.mem_map.mp earlier
        rfl
      · rw [List.mem_singleton.mp last]
    exact fun a first b second => (all a first).trans (all b second).symm
  rw [statusAt, gate, Cooldown.Gate.status_eq_ready, Cooldown.Windows.expiresAt_gate_eq_none.mpr same]
  simp

section
variable {workload : String} {windows : Cooldown.Windows} (sound : p.fault? = none)
  (urged : p.Urges (rounds n).statistics roster direction)
include sound urged

theorem verdictAfter_eq_advance : (new workload windows).verdictAfter p roster rounds n =
    (p.withCurrent ((new workload windows).heldAfter p roster rounds n)).advance p.minCapacity
      p.maxCapacity direction := by
  obtain ⟨found, evaluated, asked, unopposed⟩ := urged
  have unchanged : (p.withCurrent ((new workload windows).heldAfter p roster rounds n)).fault? = none := sound
  rw [verdictAfter, policy_feedback, enforce_of_ready unchanged (statusAt_feedback _)]
  exact Policy.decide_of_asking evaluated asked unopposed

theorem heldAfter_succ_eq_stepped : (new workload windows).heldAfter p roster rounds (n + 1) =
    (p.withCurrent ((new workload windows).heldAfter p roster rounds n)).stepped p.minCapacity
      p.maxCapacity direction := by
  rw [heldAfter_succ, verdictAfter_eq_advance sound urged]
  exact Policy.getD_change?_advance p.minCapacity p.maxCapacity

end

section
variable {workload : String} {windows : Cooldown.Windows} (sound : p.fault? = none)
  (urged : ∀ n, p.Urges (rounds n).statistics roster direction)
include sound urged

theorem get_heldAfter_succ (n : Nat) (d : String) :
    ((new workload windows).heldAfter p roster rounds (n + 1)).get d = p.reached (n + 1) d direction := by
  induction n with
  | zero =>
    rw [heldAfter_succ_eq_stepped sound (urged 0)]
    exact Policy.get_stepped d
  | succ n ih =>
    rw [heldAfter_succ_eq_stepped sound (urged (n + 1))]
    exact (Policy.get_stepped d).trans (Policy.reached_succ ih)

/-- Where one round changes nothing, no later one does. -/
theorem heldAfter_eq_of_le {n m : Nat} (later : n ≤ m)
    (stays : (new workload windows).heldAfter p roster rounds (n + 1) =
      (new workload windows).heldAfter p roster rounds n) :
    (new workload windows).heldAfter p roster rounds m =
      (new workload windows).heldAfter p roster rounds n := by
  induction m, later using Nat.le_induction with
  | base => rfl
  | succ m _ ih =>
    rw [heldAfter_succ_eq_stepped sound (urged m), ih, ← heldAfter_succ_eq_stepped sound (urged n), stays]

/-- While rules ask for one direction on the same instances, a new engine takes the capacity by as many
steps as there are rounds, cut short by the bound ahead. It tells that it has halted exactly in a round
that leaves the capacity as it was, and from then on in every round. Until then it applies a change. -/
theorem feedback_reaches (workload : String) (windows : Cooldown.Windows) (n : Nat) :
    let held := (new workload windows).heldAfter p roster rounds
    let verdict := (new workload windows).verdictAfter p roster rounds
    let halted := (p.withCurrent (held n)).halted p.maxCapacity direction
    (∀ d, (held (n + 1)).get d = p.reached (n + 1) d direction) ∧
      (verdict n = halted ↔ held (n + 1) = held n) ∧
      (verdict n ≠ halted → verdict n = .ok (.applied (held n) (held (n + 1)) direction)) ∧
      (verdict n = halted → ∀ m, n ≤ m → verdict m = halted) := by
  intro held verdict halted
  have advances (m : Nat) : verdict m =
      (p.withCurrent (held m)).advance p.minCapacity p.maxCapacity direction :=
    verdictAfter_eq_advance sound (urged m)
  have steps (m : Nat) : held (m + 1) =
      (p.withCurrent (held m)).stepped p.minCapacity p.maxCapacity direction :=
    heldAfter_succ_eq_stepped sound (urged m)
  have stays : verdict n = halted ↔ held (n + 1) = held n := by
    rw [advances, steps]
    exact Policy.advance_eq_halted_iff _ _
  refine ⟨get_heldAfter_succ sound urged n, stays, ?_, ?_⟩
  · intro moves
    rw [advances, steps, Policy.advance, if_neg]
    · rfl
    · rw [← steps]
      exact stays.not.mp moves
  · intro halts m later
    have same : held m = held n := heldAfter_eq_of_le sound urged later (stays.mp halts)
    rw [advances, same, ← advances, halts]

end

/-- From an amount of processors, of which the policy allows none, and 50 of memory: the processors go
in the first round, the memory is at its maximum after two, and the third round and all later ones
tell so. -/
theorem feedback_reaches_hundred :
    let p := { tenToHundred 50 with
      current := .ofPairs [("cpu", 7), ("memory", 50)]
      increaseStep := .single "memory" 30 }
    let e := Engine.new "web" .default
    let roster := Roster.ofList [("vm", "east")]
    let rounds (n : Nat) : Round := ⟨busy, n * 60000⟩
    let saturated : Verdict := .error (.saturated (.single "memory" 100) (.single "memory" 100))
    p.fault? = none ∧ (∀ n, p.Urges (rounds n).statistics roster .up) ∧
      (e.heldAfter p roster rounds 1).get "cpu" = 0 ∧
      (e.heldAfter p roster rounds 2).get "memory" = 100 ∧
      e.verdictAfter p roster rounds 2 = saturated ∧
      e.verdictAfter p roster rounds 9 = saturated := by
  intro p e roster rounds saturated
  have sound : p.fault? = none := by decide +kernel
  have urged (n : Nat) : p.Urges (rounds n).statistics roster .up := by
    let rule : Rule := ⟨⟨"cpu", .avg, .ofMillis 300000, none, none⟩, .integer 20, .integer 80⟩
    refine ⟨⟨[], [⟨rule, .integer 95⟩]⟩, ?_, List.cons_ne_nil _ _, rfl⟩
    show evaluate p.rules busy roster = _
    decide +kernel
  have third : e.verdictAfter p roster rounds 2 = saturated := by decide +kernel
  obtain ⟨first, -⟩ := feedback_reaches sound urged "web" .default 0
  obtain ⟨second, -⟩ := feedback_reaches sound urged "web" .default 1
  obtain ⟨-, -, -, lasting⟩ := feedback_reaches sound urged "web" .default 2
  refine ⟨sound, urged, (first "cpu").trans (by decide +kernel),
    (second "memory").trans (by decide +kernel), third, ?_⟩
  have held : e.heldAfter p roster rounds 2 = .single "memory" 100 := by decide +kernel
  have halts := lasting (by rw [third, held]; rfl) 9 (by decide)
  rw [halts, held]
  rfl

end Engine

end Autoscaler
