import Autoscaler.Proofs.Enforcement.Plan

/-!
# Cooldown

Instances that join or leave open a window, and the gate of an engine is shut until the window has
passed. Nothing that the gate sees later moves the end back, whatever the time at which it is seen
(`ShutUntil.observe`). While its gate is shut an engine refuses every zone set of every cycle and
records no target.
-/

namespace Autoscaler

namespace Cooldown

/-- The windows that a change from one list of instances to another opens. -/
inductive Windows.Opens (w : Windows) (before after : List String) : Duration → Prop where
  | added {i : String} (joined : i ∈ after) (absent : i ∉ before) : w.Opens before after w.add
  | removed {i : String} (left : i ∈ before) (absent : i ∉ after) : w.Opens before after w.remove

/-- All that a gate sees when it is asked: the instances, and the time. -/
structure Sighting where
  instances : Std.ExtTreeSet String
  now : Nat

namespace Gate

/-- The gate after several sightings. -/
def observeAll (g : Gate) (sightings : List Sighting) : Gate :=
  sightings.foldl (fun g s => g.observe s.instances s.now) g

theorem exceeds_self (a : Std.ExtTreeSet String) : exceeds a a = false :=
  exceeds_eq_false.mpr fun _ mem => mem

theorem exceeds_ofList {a b : List String} {i : String} (mem : i ∈ a) (absent : i ∉ b) :
    exceeds (.ofList a) (.ofList b) = true := by
  by_contra none
  rw [Bool.not_eq_true, exceeds_eq_false] at none
  have listed := none i (by simpa [Std.ExtTreeSet.mem_ofList] using mem)
  exact absent (by simpa [Std.ExtTreeSet.mem_ofList] using listed)

@[simp] theorem windows_observe (g : Gate) (current : Std.ExtTreeSet String) (now : Nat) :
    (g.observe current now).windows = g.windows := by
  cases seen : g.previous <;> simp [observe, seen]

@[simp] theorem previous_observe (g : Gate) (current : Std.ExtTreeSet String) (now : Nat) :
    (g.observe current now).previous = some current := by
  cases seen : g.previous <;> simp [observe, seen]

theorem observe_observe (g : Gate) (current : Std.ExtTreeSet String) (now later : Nat) :
    (g.observe current now).observe current later = g.observe current now := by
  have seen := previous_observe g current now
  rw [observe, seen]
  simp only [exceeds_self, Bool.false_eq_true, if_false]
  rw [← seen]

theorem observeAll_append (g : Gate) (first second : List Sighting) :
    g.observeAll (first ++ second) = (g.observeAll first).observeAll second :=
  List.foldl_append

theorem windows_observeAll (g : Gate) (sightings : List Sighting) :
    (g.observeAll sightings).windows = g.windows := by
  induction sightings generalizing g with
  | nil => rfl
  | cons s rest ih => exact (ih _).trans (windows_observe g s.instances s.now)

/-! ## The end of a cooldown -/

/-- A cooldown with this end is not over at a time. -/
def Reaches (expiresAt : Option Nat) (t : Nat) : Prop := ∃ e, expiresAt = some e ∧ t ≤ e

/-- The gate is shut up to a time, that time included. -/
def ShutUntil (g : Gate) (t : Nat) : Prop := Reaches g.expiresAt t

variable {g : Gate} {expiresAt : Option Nat} {now t : Nat}

theorem reaches_extend (now : Nat) (window : Duration) (expiresAt : Option Nat) :
    Reaches (extend now window expiresAt) (min (now + window.millis) maxTime) := by
  refine ⟨_, rfl, ?_⟩
  cases expiresAt with
  | none => simp [deadline]; omega
  | some e => simp [deadline]; omega

theorem Reaches.extend (reaches : Reaches expiresAt t) (opened : Bool) (now : Nat)
    (window : Duration) : Reaches (if opened then Gate.extend now window expiresAt else expiresAt) t := by
  obtain ⟨e, rfl, later⟩ := reaches
  cases opened with
  | true => exact ⟨_, rfl, Nat.le_trans later (Nat.le_max_left _ _)⟩
  | false => exact ⟨e, rfl, later⟩

theorem ShutUntil.observe (shut : g.ShutUntil t) (current : Std.ExtTreeSet String) (now : Nat) :
    (g.observe current now).ShutUntil t := by
  cases seen : g.previous with
  | none => simpa [ShutUntil, Gate.observe, seen] using shut
  | some previous =>
    have added := shut.extend (exceeds current previous) now g.windows.add
    have removed := added.extend (exceeds previous current) now g.windows.remove
    simpa [ShutUntil, Gate.observe, seen] using removed

theorem ShutUntil.observeAll (shut : g.ShutUntil t) (sightings : List Sighting) :
    (g.observeAll sightings).ShutUntil t := by
  induction sightings generalizing g with
  | nil => exact shut
  | cons s rest ih => exact ih (shut.observe s.instances s.now)

/-- A change of the instances shuts the gate for the window that it opens. -/
theorem shutUntil_observe {before after : List String} {window : Duration}
    (seen : g.previous = some (.ofList before)) (opens : g.windows.Opens before after window) (now : Nat) :
    (g.observe (.ofList after) now).ShutUntil (min (now + window.millis) maxTime) := by
  cases opens with
  | added joined absent =>
    have more := exceeds_ofList joined absent
    have added := reaches_extend now g.windows.add g.expiresAt
    have kept := added.extend (exceeds (.ofList before) (.ofList after)) now g.windows.remove
    simpa [ShutUntil, Gate.observe, seen, more] using kept
  | removed left absent =>
    have fewer := exceeds_ofList left absent
    simpa [ShutUntil, Gate.observe, seen, fewer] using reaches_extend now g.windows.remove _

theorem ShutUntil.status_ne_ready (shut : g.ShutUntil t) (early : now ≤ t) : g.status now ≠ .ready := by
  obtain ⟨e, ends, later⟩ := shut
  have before : now ≤ e := by omega
  simp [status, ends, before]

end Gate

end Cooldown

/-! ## Engines with a gate that is shut -/

theorem Cycle.exists_refusal {c : Cycle} {status : Cooldown.Status} (waiting : status ≠ .ready)
    (statistics : Snapshot) (roster : Roster) (planned : Allocation) (z : ZoneSet) (p : Policy) :
    ∃ refusal, c.verdict status statistics roster planned z p = .error refusal := by
  rcases c.refused_or_decided status statistics roster planned z p with refused | ⟨-, ready, -⟩
  · exact refused
  · exact absurd ready waiting

namespace Engine

variable {e : Engine} {c : Cycle} {statistics : Snapshot} {roster : Roster} {now : Nat}

theorem exists_refusal (waiting : e.statusAt roster now ≠ .ready) {z : ZoneSet} {v : Verdict}
    (decided : (z, v) ∈ (e.enforceCycle c statistics roster now).1) : ∃ refusal, v = .error refusal := by
  obtain ⟨before, p, -, rfl⟩ := mem_enforceCycle.mp decided
  exact Cycle.exists_refusal waiting statistics roster _ z p

theorem latest_enforceCycle (waiting : e.statusAt roster now ≠ .ready) :
    (e.enforceCycle c statistics roster now).2.latest = e.latest := by
  have refused : ∀ entry ∈ c.verdicts (e.statusAt roster now) statistics roster,
      ∃ refusal, entry.2.1 = .error refusal := by
    rintro ⟨z, v, plan⟩ listed
    obtain ⟨before, p, -, rfl, -⟩ := Cycle.mem_verdictsFrom.mp listed
    exact Cycle.exists_refusal waiting statistics roster _ z p
  show (c.verdicts (e.statusAt roster now) statistics roster).foldl
    (fun latest entry => record latest entry.1 entry.2.1) e.latest = e.latest
  -- Of a refused verdict nothing is recorded, so that the fold over all of them keeps what it starts from.
  generalize c.verdicts (e.statusAt roster now) statistics roster = verdicts at refused
  induction verdicts with
  | nil => rfl
  | cons entry rest ih =>
    obtain ⟨refusal, first⟩ := refused entry List.mem_cons_self
    rw [List.foldl_cons, first]
    exact ih fun other mem => refused other (List.mem_cons_of_mem _ mem)

end Engine

end Autoscaler
