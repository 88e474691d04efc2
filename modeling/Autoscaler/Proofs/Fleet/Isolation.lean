import Autoscaler.Proofs.Fleet.Share
import Autoscaler.Proofs.Fleet.Totals
import Mathlib.Data.List.Forall2

/-!
# Isolation of workloads

Workloads that share a scheduler do not notice each other. What a workload sees of a history is what
it would see if it were alone (`isolated`): of the operations only those that name it and the ticks
matter, and of a tick only the time and what is fetched and provisioned for the workload itself.
Whatever comes of the others, of their fetches, their policies and their targets, is no part of it.
-/

namespace Autoscaler

/-- Surroundings are the same to a workload at equal times, with equal statistics and rosters of the
workload, and with equal luck for its targets. -/
structure Surroundings.SameTo (id : String) (first second : Surroundings) : Prop where
  now : first.now = second.now
  statistics : first.statistics id = second.statistics id
  roster : first.roster id = second.roster id
  provision : first.provision.map (· id) = second.provision.map (· id)

/-- Operations are the same to a workload if they are equal or ticks in surroundings that are. -/
inductive Operation.SameTo (id : String) : Operation → Operation → Prop where
  | refl (operation : Operation) : SameTo id operation operation
  | tick {first second : Surroundings} (same : first.SameTo id second) :
    SameTo id (.tick first) (.tick second)

theorem Surroundings.SameTo.calls_eq {id : String} {first second : Surroundings}
    (same : first.SameTo id second) {outcomes : List Outcome} (own : ∀ o ∈ outcomes, o.workload = id) :
    first.calls outcomes = second.calls outcomes := by
  have provision := same.provision
  unfold calls
  cases accepted : first.provision with
  | none =>
    rw [accepted, Option.map_none, eq_comm, Option.map_eq_none_iff] at provision
    rw [provision]
  | some p =>
    rw [accepted, Option.map_some, eq_comm, Option.map_eq_some_iff] at provision
    obtain ⟨q, granted, agree⟩ := provision
    rw [granted]
    simp only
    induction outcomes with
    | nil => rfl
    | cons o rest ih =>
      have first : o.call? p = o.call? q := by
        rw [Outcome.call?, Outcome.call?, own o List.mem_cons_self, agree]
      rw [List.filterMap_cons, List.filterMap_cons, first,
        ih fun o mem => own o (List.mem_cons_of_mem _ mem)]

namespace Share

variable {id : String}

theorem workload_of_mem_outcomes {share : Share} {world : Surroundings} {o : Outcome}
    (mem : o ∈ share.outcomes id world) : o.workload = id := by
  rw [outcomes] at mem
  split at mem
  · obtain ⟨verdict, -, rfl⟩ := List.mem_map.mp mem
    rfl
  · cases mem

theorem tick_congr {first second : Surroundings} (same : first.SameTo id second) (share : Share) :
    share.tick id first = share.tick id second := by
  have run : share.run? id first = share.run? id second := by
    rw [run?, same.statistics, same.roster, same.now]
    rfl
  have outcomes : share.outcomes id first = share.outcomes id second := by
    rw [Share.outcomes, run]
    rfl
  have engine : share.engineAfter id first = share.engineAfter id second := by
    rw [engineAfter, run]
    rfl
  have calls := same.calls_eq fun o (mem : o ∈ share.outcomes id second) => workload_of_mem_outcomes mem
  rw [tick, tick, outcomes, engine, calls]

theorem perform_congr {first second : Operation} (same : first.SameTo id second) (share : Share) :
    share.perform id first = share.perform id second := by
  cases same with
  | refl => rfl
  | tick same => rw [perform, perform, tick_congr same]

theorem performAll_congr {first second : List Operation}
    (same : List.Forall₂ (Operation.SameTo id) first second) (share : Share) :
    share.performAll id first = share.performAll id second := by
  induction same generalizing share with
  | nil => rfl
  | cons operation _ ih => simp only [performAll, perform_congr operation, ih]

end Share

namespace Scheduler

/-- What a workload sees of a history of a new scheduler: the answers to it, its outcomes and calls in
every tick among them, and in the end its engine and what its zone sets hold. -/
def seenBy (id : String) (history : List Operation) : List Response × Share :=
  ((new.performAll history).1.filterMap (Event.answer? id), (new.performAll history).2.share id)

theorem seenBy_eq (id : String) (history : List Operation) :
    seenBy id history = (new.share id).performAll id (history.filter (·.concerns id)) := by
  obtain ⟨answers, share⟩ := performAll_eq_share history new id
  exact Prod.ext answers share

/-- A workload sees of a history what it sees when only the operations that name it and the ticks are
performed, and when it comes to the others, their operations and what the ticks hold for them may be
anything else. -/
theorem isolated (id : String) (history : List Operation) :
    seenBy id history = seenBy id (history.filter (·.concerns id)) ∧
    ∀ other : List Operation, List.Forall₂ (Operation.SameTo id) (history.filter (·.concerns id))
      (other.filter (·.concerns id)) → seenBy id history = seenBy id other := by
  constructor
  · rw [seenBy_eq, seenBy_eq, List.filter_filter]
    simp only [Bool.and_self]
  · intro other same
    rw [seenBy_eq, seenBy_eq]
    exact Share.performAll_congr same _

/-- In one history another workload comes with a policy that has no rules, gets none of its targets and
goes again. In the other it never comes, nothing can be fetched for it, and only its capacity is noted.
The pair grows and shrinks in both alike. -/
theorem isolated_pair :
    let batch : Workload := { pair with id := "batch", policy := { pair.policy with rules := [] } }
    let refusing := { reporting 95 with provision := some fun id z _ => id = "pair" && z.text = "west" }
    let unknowing := { reporting 95 with
      statistics := fun id => if id = "pair" then (reporting 95).statistics id else none }
    let history := [.add batch, .add pair, .tick refusing, .remove "batch", .tick (reporting 5)]
    let other := [.add pair, .tick unknowing, .setLastEnforced "batch" .whole 0, .tick (reporting 5)]
    List.Forall₂ (Operation.SameTo "pair") (history.filter (·.concerns "pair"))
        (other.filter (·.concerns "pair")) ∧
      seenBy "pair" history = seenBy "pair" (history.filter (·.concerns "pair")) ∧
      seenBy "pair" history = seenBy "pair" other ∧
      ((new.performAll history).2.held "pair").total = .single "memory" 1800 ∧
      (new.performAll history).2.lastEnforced? "batch" ≠ (new.performAll other).2.lastEnforced? "batch" := by
  intro batch refusing unknowing history other
  have kept : history.filter (·.concerns "pair") = [.add pair, .tick refusing, .tick (reporting 5)] := rfl
  have keptOther : other.filter (·.concerns "pair") = [.add pair, .tick unknowing, .tick (reporting 5)] :=
    rfl
  have alike : refusing.SameTo "pair" unknowing :=
    ⟨rfl, rfl, rfl, by simp [refusing, unknowing, reporting]⟩
  have same : List.Forall₂ (Operation.SameTo "pair") (history.filter (·.concerns "pair"))
      (other.filter (·.concerns "pair")) := by
    rw [kept, keptOther]
    exact .cons (.refl _) (.cons (.tick alike) (.cons (.refl _) .nil))
  obtain ⟨alone, replaced⟩ := isolated "pair" history
  exact ⟨same, alone, replaced other same, by decide +kernel, by decide +kernel⟩

end Scheduler

end Autoscaler
