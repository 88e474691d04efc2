import Autoscaler.Proofs.Fleet.FirstTick
import Autoscaler.Proofs.Traversal

/-!
# Workloads from settings

What can be relied on when settings have been resolved: each workload is in order, no two have the
same id, and a scheduler can run them all without looking at their policies again
(`resolve_runnable`). When they cannot be resolved, the first entry that is in the way is reported.
-/

namespace Autoscaler

/-! ## Zone sets -/

namespace ZoneSet

theorem mem_foldl_insert (zs : List ZoneSet) (set : Std.ExtTreeSet ZoneSet) (z : ZoneSet) :
    z ∈ zs.foldl (fun set z => set.insert z) set ↔ z ∈ zs ∨ z ∈ set := by
  induction zs generalizing set with
  | nil => simp
  | cons first rest ih =>
    rw [List.foldl_cons, ih, Std.ExtTreeSet.mem_insert, Std.LawfulEqCmp.compare_eq_iff_eq,
      List.mem_cons, eq_comm (a := first)]
    tauto

@[simp] theorem mem_distinct {zs : List ZoneSet} {z : ZoneSet} : z ∈ distinct zs ↔ z ∈ zs := by
  rw [distinct, Std.ExtTreeSet.mem_toList, mem_foldl_insert]
  simp

theorem ascending_distinct (zs : List ZoneSet) :
    (distinct zs).Pairwise fun a b => compare a b = .lt :=
  Std.ExtTreeSet.ordered_toList

theorem mem_iff_of_read {written : List String} {zs : List ZoneSet} {z : ZoneSet}
    (read : List.Forall₂ (fun text z => parse text = .ok z) written zs) :
    z ∈ zs ↔ ∃ text ∈ written, parse text = .ok z := by
  constructor
  · exact exists_mem_of_forall₂ read
  · rintro ⟨text, listed, parsed⟩
    obtain ⟨o, mem, found⟩ := exists_mem_of_forall₂ read.flip listed
    have same : o = z := Except.ok.inj (found.symm.trans parsed)
    exact same ▸ mem

end ZoneSet

theorem resolveZoneSet_eq_ok {id written : String} {z : ZoneSet} :
    resolveZoneSet id written = .ok z ↔ ZoneSet.parse written = .ok z := by
  rw [resolveZoneSet]
  cases ZoneSet.parse written <;> simp

theorem resolveZoneSet_eq_error {id written : String} {fault : SettingsError} :
    resolveZoneSet id written = .error fault ↔
      ∃ reason, ZoneSet.parse written = .error reason ∧ fault = .invalidZoneSet id written reason := by
  rw [resolveZoneSet]
  cases ZoneSet.parse written <;> simp [eq_comm]

/-- The zone sets that are written, the default one when none are. -/
def WorkloadSettings.Names (s : WorkloadSettings) (z : ZoneSet) : Prop :=
  match s.zoneSets with
  | none => z = .whole
  | some written => ∃ text ∈ written, ZoneSet.parse text = .ok z

theorem resolveZoneSets_spec {s : WorkloadSettings} {id : String} {zones : List ZoneSet}
    (resolved : resolveZoneSets id s.zoneSets = .ok zones) :
    zones ≠ [] ∧ (zones.Pairwise fun a b => compare a b = .lt) ∧ ∀ z, z ∈ zones ↔ s.Names z := by
  unfold WorkloadSettings.Names
  cases written : s.zoneSets with
  | none =>
    rw [written] at resolved
    cases resolved
    simp
  | some texts =>
    rw [written] at resolved
    cases texts with
    | nil => cases resolved
    | cons first rest =>
      obtain ⟨parsed, all, listed⟩ := bind_eq_ok.mp resolved
      cases listed
      have read := mapM_eq_ok.mp all
      refine ⟨?_, ZoneSet.ascending_distinct parsed, fun z => ?_⟩
      · obtain ⟨z, others, -, -, rfl⟩ := List.forall₂_cons_left_iff.mp read
        exact List.ne_nil_of_mem (ZoneSet.mem_distinct.mpr List.mem_cons_self)
      · rw [ZoneSet.mem_distinct, ZoneSet.mem_iff_of_read (read.imp fun _ _ => resolveZoneSet_eq_ok.mp)]

/-! ## Workloads -/

theorem Policy.fault?_withCurrent (p : Policy) (c : Capacity) : (p.withCurrent c).fault? = p.fault? := rfl

theorem Policy.fault?_of_resolve {p : PolicySettings} {id : String} {policy : Policy}
    (resolved : p.resolve id = .ok policy) : policy.fault? = none := by
  obtain ⟨assembled, -, checked⟩ := bind_eq_ok.mp resolved
  cases fault : assembled.fault? with
  | some reason =>
    simp only [fault] at checked
    cases checked
  | none =>
    simp only [fault] at checked
    cases checked
    exact fault

theorem Capacity.get_sum_replicate (n : Nat) (c : Capacity) (d : String) :
    (sum (List.replicate n c)).get d = min (n * c.get d) maxAmount := by
  rw [get_sum, List.map_replicate, List.sum_replicate_nat]

namespace WorkloadSettings

variable {s : WorkloadSettings} {w : Workload}

/-- What a workload is like that comes from settings. -/
structure Describes (s : WorkloadSettings) (w : Workload) : Prop where
  /-- It is called what the settings call it, but for blanks, of which its id has none at its ends. -/
  id : w.id = Text.trim s.id ∧ Text.trim w.id = w.id ∧ w.id ≠ ""
  /-- Its zone sets are those that are written, each of them once, in ascending order. -/
  zoneSets : w.zoneSets ≠ [] ∧ (w.zoneSets.Pairwise fun a b => compare a b = .lt) ∧
    ∀ z, z ∈ w.zoneSets ↔ s.Names z
  /-- Its policy has no fault, whatever its zone sets hold. -/
  policy : w.policy.fault? = none ∧ ∀ c, (w.policy.withCurrent c).fault? = none
  /-- A total that is left out is the bound of a zone set, counted for each of them as far as it fits. -/
  totalMax : match s.totalMax with
    | some total => w.totalMax = total
    | none => ∀ d, w.totalMax.get d =
        min (w.zoneSets.length * w.policy.maxCapacity.get d) maxAmount
  totalMin : match s.totalMin with
    | some total => w.totalMin = total
    | none => ∀ d, w.totalMin.get d =
        min (w.zoneSets.length * w.policy.minCapacity.get d) maxAmount

theorem describes_of_resolve (resolved : s.resolve = .ok w) : s.Describes w := by
  simp only [resolve] at resolved
  split at resolved
  · cases resolved
  · rename_i named
    simp only [bind_eq_ok] at resolved
    obtain ⟨zones, divided, p, -, policy, checked, cooldown, -, made⟩ := resolved
    cases made
    refine ⟨⟨rfl, Text.trim_trim s.id, named⟩, resolveZoneSets_spec divided, ?_, ?_, ?_⟩
    · have sound := Policy.fault?_of_resolve checked
      exact ⟨sound, fun _ => sound⟩
    · cases given : s.totalMax with
      | some total => rfl
      | none => exact Capacity.get_sum_replicate _ _
    · cases given : s.totalMin with
      | some total => rfl
      | none => exact Capacity.get_sum_replicate _ _

/-- An entry is refused after others: it cannot be resolved, or it can and has the id of one of them. -/
def Refused (earlier : List WorkloadSettings) (s : WorkloadSettings) (fault : SettingsError) : Prop :=
  s.resolve = .error fault ∨ (∃ w, s.resolve = .ok w) ∧
    (∃ other ∈ earlier, Text.trim other.id = Text.trim s.id) ∧
    fault = .duplicateWorkload (Text.trim s.id)

end WorkloadSettings

/-! ## The first entry that is refused -/

namespace Settings

/-- An entry is refused after those before it, of which none is. -/
def FirstRefused (earlier written : List WorkloadSettings) (fault : SettingsError) : Prop :=
  ∃ before s rest, written = before ++ s :: rest ∧ s.Refused (earlier ++ before) fault ∧
    ∀ first o others, before = first ++ o :: others → ∀ other, ¬ o.Refused (earlier ++ first) other

theorem not_firstRefused_nil (earlier : List WorkloadSettings) (fault : SettingsError) :
    ¬ FirstRefused earlier [] fault := by
  rintro ⟨before, s, rest, split, -⟩
  simp at split

theorem firstRefused_cons {earlier rest : List WorkloadSettings} {s : WorkloadSettings}
    {fault : SettingsError} : FirstRefused earlier (s :: rest) fault ↔ s.Refused earlier fault ∨
      (∀ other, ¬ s.Refused earlier other) ∧ FirstRefused (earlier ++ [s]) rest fault := by
  constructor
  · rintro ⟨before, o, others, split, refused, accepted⟩
    cases before with
    | nil =>
      cases split
      exact .inl (by simpa using refused)
    | cons first before =>
      obtain ⟨rfl, rfl⟩ := List.cons.inj split
      refine .inr ⟨?_, before, o, others, rfl, by simpa using refused, ?_⟩
      · simpa using accepted [] s before rfl
      · intro first o' others' split'
        simpa [split'] using accepted (s :: first) o' others'
  · rintro (refused | ⟨accepted, before, o, others, rfl, refused, later⟩)
    · exact ⟨[], s, rest, rfl, by simpa using refused, by simp⟩
    · refine ⟨s :: before, o, others, rfl, by simpa using refused, ?_⟩
      intro first o' others' split
      cases first with
      | nil =>
        cases split
        simpa using accepted
      | cons s' first =>
        obtain ⟨rfl, same⟩ := List.cons.inj split
        simpa using later first o' others' same

theorem resolveFrom_cons_eq_error {taken : List String} {s : WorkloadSettings}
    {rest : List WorkloadSettings} {fault : SettingsError} :
    resolveFrom taken (s :: rest) = .error fault ↔ s.resolve = .error fault ∨
      ∃ w, s.resolve = .ok w ∧ (w.id ∈ taken ∧ fault = .duplicateWorkload w.id ∨
        w.id ∉ taken ∧ resolveFrom (w.id :: taken) rest = .error fault) := by
  rw [resolveFrom]
  cases s.resolve with
  | error reason => simp [bind, Except.bind]
  | ok w =>
    by_cases again : w.id ∈ taken
    · simp [again, bind, Except.bind, eq_comm]
    · cases later : resolveFrom (w.id :: taken) rest with
      | error reason => simp [again, later, bind, Except.bind]
      | ok others => simp [again, later, bind, Except.bind, pure, Except.pure]

theorem resolveFrom_eq_error {taken : List String} {earlier written : List WorkloadSettings}
    (ids : ∀ id, id ∈ taken ↔ ∃ s ∈ earlier, Text.trim s.id = id) (fault : SettingsError) :
    resolveFrom taken written = .error fault ↔ FirstRefused earlier written fault := by
  induction written generalizing taken earlier with
  | nil =>
    constructor
    · intro failed
      cases failed
    · intro refused
      exact absurd refused (not_firstRefused_nil earlier fault)
  | cons s rest ih =>
    rw [firstRefused_cons, resolveFrom_cons_eq_error]
    cases resolved : s.resolve with
    | error reason => simp [WorkloadSettings.Refused, resolved]
    | ok w =>
      have id := (WorkloadSettings.describes_of_resolve resolved).id.1
      have more : ∀ other, other ∈ w.id :: taken ↔ ∃ o ∈ earlier ++ [s], Text.trim o.id = other := by
        intro other
        rw [List.mem_cons, ids, id]
        simp [or_and_right, exists_or, or_comm, eq_comm]
      have refused (other : SettingsError) : s.Refused earlier other ↔
          w.id ∈ taken ∧ other = .duplicateWorkload w.id := by
        simp [WorkloadSettings.Refused, resolved, ids, id]
      simp only [refused, ← ih more]
      by_cases again : w.id ∈ taken
      · simp [again]
      · simp [again]

theorem describes_of_resolveFrom {taken : List String} {written : List WorkloadSettings}
    {workloads : List Workload} (resolved : resolveFrom taken written = .ok workloads) :
    List.Forall₂ (fun s w => s.resolve = .ok w ∧ s.Describes w) written workloads := by
  induction written generalizing taken workloads with
  | nil =>
    cases resolved
    exact .nil
  | cons s rest ih =>
    obtain ⟨w, others, first, -, later, rfl⟩ := resolveFrom_cons_eq_ok.mp resolved
    exact .cons ⟨first, WorkloadSettings.describes_of_resolve first⟩ (ih later)

end Settings

/-! ## Running the workloads -/

namespace Workload

variable {w : Workload} {o : Observation} {now : Nat}

theorem evaluate_ne_invalidPolicy (sound : w.policy.fault? = none) {e : ZoneSet × Verdict}
    (evaluated : e ∈ w.evaluate o now) (reason : PolicyError) :
    e.2 ≠ .error (.invalidPolicy reason) := by
  obtain ⟨before, p, turn, verdict⟩ := Engine.mem_enforceCycle.mp evaluated
  rw [verdict]
  refine Cycle.verdict_ne_invalidPolicy ?_ reason
  rw [policy_eq turn.policy_eq, Policy.fault?_withCurrent]
  exact sound

end Workload

namespace Scheduler

variable {s : Scheduler}

/-- No workload has a policy with a fault. -/
def Faultless (s : Scheduler) : Prop :=
  ∀ (id : String) (w : Workload), s.workloads[id]? = some w → w.policy.fault? = none

theorem Faultless.verdict_ne (faultless : s.Faultless) {world : Surroundings} {o : Outcome}
    (reported : o ∈ s.outcomes world) (reason : PolicyError) :
    o.verdict ≠ .error (.invalidPolicy reason) := by
  obtain ⟨w, -, -, found, -⟩ := mem_outcomes.mp reported
  obtain ⟨status, statistics, roster, turns⟩ := exists_turn_of_outcomes found world
  obtain ⟨before, p, turn, verdict⟩ := turns o.zoneSet o.verdict reported
  rw [verdict]
  refine Cycle.verdict_ne_invalidPolicy ?_ reason
  rw [Workload.policy_eq turn.policy_eq, Policy.fault?_withCurrent]
  exact faultless o.workload w found

theorem Faultless.run (faultless : s.Faultless) (worlds : List Surroundings) :
    ∀ tick ∈ (s.run worlds).1, ∀ o ∈ tick.outcomes, ∀ reason,
      o.verdict ≠ .error (.invalidPolicy reason) := by
  induction worlds generalizing s with
  | nil =>
    intro tick mem
    cases mem
  | cons world rest ih =>
    have later : (s.tick world).2.2.Faultless := by
      intro id w found
      rw [workloads_tick] at found
      exact faultless id w found
    intro tick mem
    rcases List.mem_cons.mp mem with rfl | mem
    · exact fun _ reported => faultless.verdict_ne reported
    · exact ih later tick mem

/-- A scheduler can be started with the workloads, whatever was recorded of them, and has engines for
them and for no others. Their policies are never refused, neither by a tick nor by an evaluation. -/
structure Runs (workloads : List Workload) : Prop where
  started : ∀ recorded, ∃ s, start workloads recorded = .ok s ∧
    (∀ id, id ∈ s.registry.workloads ↔ id ∈ workloads.map Workload.id) ∧
    ∀ worlds, ∀ tick ∈ (s.run worlds).1, ∀ o ∈ tick.outcomes, ∀ reason,
      o.verdict ≠ .error (.invalidPolicy reason)
  evaluated : ∀ w ∈ workloads, ∀ o now, ∀ e ∈ w.evaluate o now, ∀ reason,
    e.2 ≠ .error (.invalidPolicy reason)

theorem runs_of_distinct {workloads : List Workload} (distinct : (workloads.map Workload.id).Nodup)
    (sound : ∀ w ∈ workloads, w.policy.fault? = none) : Runs workloads where
  started := by
    intro recorded
    obtain ⟨s, started, untouched, kept⟩ :=
      exists_enrollAll (s := new) distinct (fun _ _ => rfl) recorded
    refine ⟨s, started, fun id => ?_, Faultless.run ?_⟩
    · rw [Registry.mem_workloads]
      show (s.share id).engine.isSome ↔ _
      by_cases listed : id ∈ workloads.map Workload.id
      · obtain ⟨w, mem, rfl⟩ := List.mem_map.mp listed
        rw [kept w mem]
        exact iff_of_true rfl listed
      · rw [untouched id listed]
        exact iff_of_false (show ¬ false = true by decide) listed
    · intro id w found
      have workload : (s.share id).workload = some w := found
      by_cases listed : id ∈ workloads.map Workload.id
      · obtain ⟨other, mem, rfl⟩ := List.mem_map.mp listed
        rw [kept other mem] at workload
        cases Option.some.inj workload
        exact sound w mem
      · rw [untouched id listed] at workload
        cases workload
  evaluated w mem _ _ _ listed := Workload.evaluate_ne_invalidPolicy (sound w mem) listed

end Scheduler

namespace Settings

/-- Settings that can be resolved describe one workload after the other, each in order and none with
the id of another, and a scheduler runs them. Settings that cannot be resolved have a first entry that
is refused, and its fault is reported. -/
theorem resolve_runnable (settings : Settings) :
    (∀ workloads, settings.resolve = .ok workloads →
      List.Forall₂ (fun s w => s.resolve = .ok w ∧ s.Describes w) settings.workloads workloads ∧
        (workloads.map Workload.id).Nodup ∧ Scheduler.Runs workloads) ∧
    ∀ fault, settings.resolve = .error fault ↔ FirstRefused [] settings.workloads fault := by
  constructor
  · intro workloads resolved
    have described := describes_of_resolveFrom resolved
    have distinct := (distinct_of_resolveFrom resolved).1
    refine ⟨described, distinct, Scheduler.runs_of_distinct distinct fun w mem => ?_⟩
    obtain ⟨s, -, -, describes⟩ := exists_mem_of_forall₂ described mem
    exact describes.policy.1
  · intro fault
    exact resolveFrom_eq_error (by simp) fault

/-- Two workloads to start from are run. When the id of the second is that of the first with a blank
before it, the second is refused. -/
theorem resolve_runnable_starter :
    let two := fun first second : String =>
      (⟨(starter first).workloads ++ (starter second).workloads⟩ : Settings)
    (two "db" "web").resolve = .ok [Scheduler.starter "db", Scheduler.starter "web"] ∧
      Scheduler.Runs [Scheduler.starter "db", Scheduler.starter "web"] ∧
      (two "db" " db").resolve = .error (.duplicateWorkload "db") ∧
      FirstRefused [] (two "db" " db").workloads (.duplicateWorkload "db") := by
  intro two
  have resolved : (two "db" "web").resolve =
      .ok [Scheduler.starter "db", Scheduler.starter "web"] := by decide +kernel
  have refused : (two "db" " db").resolve = .error (.duplicateWorkload "db") := by decide +kernel
  obtain ⟨-, -, runs⟩ := (resolve_runnable (two "db" "web")).1 _ resolved
  exact ⟨resolved, runs, refused, ((resolve_runnable (two "db" " db")).2 _).mp refused⟩

end Settings

end Autoscaler
