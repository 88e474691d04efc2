import Autoscaler.Proofs.Fleet.Provisioning
import Autoscaler.Proofs.Fleet.Share

/-!
# Lifecycles

A workload that is there has an engine, and what it is known to hold names every one of its zone sets
(`sound_share`). This is so from the moment when it is added until it is removed, and it does not
depend on what is noted for a workload that is not there.
-/

namespace Autoscaler

namespace Share

/-- What holds of a share and is kept whenever something is noted is kept by calls. -/
theorem foldl_settle_induction {P : Share → Prop}
    (noted : ∀ share z c, P share → P (share.setLastEnforced z c)) (calls : List Call) {share : Share}
    (start : P share) : P (calls.foldl settle share) := by
  induction calls generalizing share with
  | nil => exact start
  | cons call rest ih =>
    apply ih
    rw [settle]
    split
    · exact noted share call.zoneSet call.target start
    · exact start

/-- All that an operation can do to a share: it is refused and leaves it as it is, it starts or ends it,
it notes what a zone set holds, or the engine runs and targets are noted. -/
theorem perform_induction {P : Share → Prop} {share : Share} {id : String} {operation : Operation}
    (added : ∀ w, operation = .add w → P (fresh w)) (removed : P empty)
    (noted : ∀ share z c, P share → P (share.setLastEnforced z c))
    (ran : ∀ world, P share → P { share with engine := share.engineAfter id world })
    (holds : P share) : P (share.perform id operation).2 := by
  cases operation with
  | add w =>
    rw [Share.perform, add]
    by_cases live : share.engine.isSome = true
    · rw [if_pos live]
      exact holds
    · rw [if_neg live]
      exact added w rfl
  | remove other =>
    rw [Share.perform, remove]
    cases engine : share.engine with
    | none => exact holds
    | some live =>
      cases registered : share.workload with
      | none => exact holds
      | some w => exact removed
  | setLastEnforced other z c => exact noted share z c holds
  | tick world => exact foldl_settle_induction noted _ (ran world holds)

/-- A workload has an engine exactly when it is there, and then all of its zone sets have entries. -/
structure Sound (share : Share) : Prop where
  live : share.engine.isSome = share.workload.isSome
  entered : ∀ w, share.workload = some w → ∀ z ∈ w.zoneSets, (share.held.get? z).isSome

variable {share : Share}

theorem sound_fresh (w : Workload) : (fresh w).Sound where
  live := rfl
  entered := by
    intro other registered z mem
    cases Option.some.inj registered
    show (w.initial.get? z).isSome
    rw [Workload.get?_initial, if_pos mem]
    rfl

theorem sound_empty : empty.Sound where
  live := rfl
  entered := by
    intro w absent
    cases absent

theorem Sound.setLastEnforced (sound : share.Sound) (z : ZoneSet) (c : Capacity) :
    (share.setLastEnforced z c).Sound where
  live := sound.live
  entered := by
    intro w registered o mem
    show ((share.held.set z c).get? o).isSome
    rw [Allocation.get?_set]
    split
    · rfl
    · exact sound.entered w registered o mem

theorem isSome_engineAfter (share : Share) (id : String) (world : Surroundings) :
    (share.engineAfter id world).isSome = share.engine.isSome := by
  rw [engineAfter]
  cases ran : share.run? id world with
  | none => rfl
  | some result =>
    simp only [run?, Option.bind_eq_bind, Option.bind_eq_some_iff] at ran
    obtain ⟨-, -, -, -, -, -, engine, live, -⟩ := ran
    rw [live]
    rfl

theorem Sound.perform (sound : share.Sound) (id : String) (operation : Operation) :
    (share.perform id operation).2.Sound := by
  refine perform_induction (fun w _ => sound_fresh w) sound_empty
    (fun _ z c sound => sound.setLastEnforced z c) (fun world sound => ?_) sound
  exact ⟨(isSome_engineAfter share id world).trans sound.live, sound.entered⟩

/-- The engine and the workload are both there, or neither is. -/
theorem Sound.cases (sound : share.Sound) : share.engine = none ∧ share.workload = none ∨
    ∃ e w, share.engine = some e ∧ share.workload = some w := by
  have live := sound.live
  cases engine : share.engine with
  | none =>
    rw [engine] at live
    exact .inl ⟨rfl, Option.isNone_iff_eq_none.mp (by simpa using live.symm)⟩
  | some e =>
    rw [engine] at live
    obtain ⟨w, registered⟩ := Option.isSome_iff_exists.mp live.symm
    exact .inr ⟨e, w, rfl, registered⟩

end Share

/-- What is kept of a share by the operations that concern the workload is kept by all of them. -/
theorem Scheduler.share_step {P : Share → Prop} {id : String}
    (step : ∀ share operation, operation.concerns id = true → P share →
      P (share.perform id operation).2) (s : Scheduler) (operation : Operation)
    (holds : P (s.share id)) : P ((s.perform operation).2.share id) := by
  cases concerned : operation.concerns id with
  | true =>
    rw [(perform_eq_share concerned s).2]
    exact step _ operation concerned holds
  | false =>
    rw [share_perform_of_not_concerns concerned]
    exact holds

/-- What holds of an empty share and is kept by the operations that concern the workload holds in every
history from the start. -/
theorem Scheduler.share_induction_of_concerns {P : Share → Prop} {id : String} (start : P .empty)
    (step : ∀ share operation, operation.concerns id = true → P share →
      P (share.perform id operation).2) (history : List Operation) :
    P ((new.performAll history).2.share id) :=
  performAll_induction (P := fun s => P (s.share id)) (share_step step) history start

/-- What holds of an empty share and is kept by every operation holds in every history from the
start. -/
theorem Scheduler.share_induction {P : Share → Prop} {id : String} (start : P .empty)
    (step : ∀ share operation, P share → P (share.perform id operation).2) (history : List Operation) :
    P ((new.performAll history).2.share id) :=
  share_induction_of_concerns start (fun share operation _ => step share operation) history

theorem Scheduler.sound_perform {s : Scheduler} (sound : ∀ id, (s.share id).Sound)
    (operation : Operation) (id : String) : ((s.perform operation).2.share id).Sound :=
  share_step (fun _ operation _ sound => sound.perform id operation) s operation (sound id)

theorem Scheduler.sound_share (history : List Operation) (id : String) :
    ((new.performAll history).2.share id).Sound :=
  share_induction Share.sound_empty (fun _ operation sound => sound.perform id operation) history

end Autoscaler
