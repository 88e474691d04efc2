import Autoscaler.Console.Report
import Autoscaler.Fleet.Observation
import Autoscaler.Proofs.Fleet.Provisioning
import Autoscaler.Proofs.Fleet.Share
import Autoscaler.Settings.Resolution

/-!
# First ticks

Workloads that are resolved from settings have different ids, so that a scheduler can be started with
all of them (`exists_start`). What was recorded of a workload overrides what its zone sets start with,
one after the other, and comes to what an evaluation of the workload on its own starts from
(`foldl_set_initial`). A new engine does not wait. The first tick, at any time, therefore reports of
each workload what its own evaluation reports (`reports_first_tick`).
-/

namespace Autoscaler

/-! ## The ids of workloads -/

namespace Settings

theorem resolveFrom_cons_eq_ok {taken : List String} {s : WorkloadSettings}
    {rest : List WorkloadSettings} {workloads : List Workload} :
    resolveFrom taken (s :: rest) = .ok workloads ↔ ∃ w others, s.resolve = .ok w ∧ w.id ∉ taken ∧
      resolveFrom (w.id :: taken) rest = .ok others ∧ workloads = w :: others := by
  rw [resolveFrom]
  cases s.resolve with
  | error fault => simp [bind, Except.bind]
  | ok w =>
    by_cases again : w.id ∈ taken
    · simp [again, bind, Except.bind]
    · cases later : resolveFrom (w.id :: taken) rest with
      | error fault => simp [again, later, bind, Except.bind]
      | ok others => simp [again, later, bind, Except.bind, pure, Except.pure, eq_comm]

theorem distinct_of_resolveFrom {written : List WorkloadSettings} {taken : List String}
    {workloads : List Workload} (resolved : resolveFrom taken written = .ok workloads) :
    (workloads.map Workload.id).Nodup ∧ ∀ w ∈ workloads, w.id ∉ taken := by
  induction written generalizing taken workloads with
  | nil =>
    cases resolved
    simp
  | cons s rest ih =>
    obtain ⟨w, others, -, untaken, later, rfl⟩ := resolveFrom_cons_eq_ok.mp resolved
    obtain ⟨distinct, apart⟩ := ih later
    constructor
    · rw [List.map_cons, List.nodup_cons]
      refine ⟨?_, distinct⟩
      intro again
      obtain ⟨other, mem, same⟩ := List.mem_map.mp again
      exact apart other mem (by simp [same])
    · intro other mem
      rcases List.mem_cons.mp mem with rfl | mem
      · exact untaken
      · intro listed
        exact apart other mem (List.mem_cons_of_mem _ listed)

end Settings

/-! ## Workloads on their own -/

namespace Workload

variable (w : Workload) (o : Observation)

/-- What was recorded, in the place of what the zone sets start with, is what an evaluation starts
from. Records of other zone sets make no difference. -/
theorem foldl_set_initial : (w.zoneSets.filter o.lastEnforced.contains).foldl
    (fun a z => a.set z (o.lastEnforced.get z)) w.initial = w.seeded o := by
  ext1 z
  rw [Allocation.get?_foldl_set, get?_initial, seeded, Allocation.get?_ofList_map]
  simp only [List.mem_filter, Allocation.contains_eq, Allocation.get_eq, heldBy]
  by_cases mem : z ∈ w.zoneSets
  · cases recorded : o.lastEnforced.get? z with
    | none => simp [mem]
    | some c => simp [mem]
  · simp [mem]

/-- The reports of an evaluation. -/
def reports (now : Nat) : List Report := (w.evaluate o now).map fun (z, v) => ⟨z, v⟩

-- The gate of a new engine has seen nothing yet, so that no time lies in a cooldown.
theorem reports_now (now later : Nat) : w.reports o now = w.reports o later := rfl

variable {w o}

theorem report_ne_cooldown {now : Nat} {r : Report} (reported : r ∈ w.reports o now)
    (remaining : Duration) : r.verdict ≠ .error (.cooldown remaining) := by
  obtain ⟨⟨z, v⟩, listed, rfl⟩ := List.mem_map.mp reported
  obtain ⟨before, p, -, rfl⟩ := Engine.mem_enforceCycle.mp listed
  rw [engine, Engine.statusAt_new]
  apply Cycle.verdict_ne_cooldown

end Workload

/-! ## Starting a scheduler -/

namespace Share

/-- What is kept for a workload that has been enrolled with what was recorded of it. -/
def enrolled (w : Workload) (recorded : Option Observation) : Share :=
  ⟨some w.engine, some w, some ((recorded.map w.seeded).getD w.initial)⟩

theorem foldl_setLastEnforced (zones : List ZoneSet) (f : ZoneSet → Capacity)
    (engine : Option Engine) (workload : Option Workload) (a : Allocation) :
    zones.foldl (fun share z => setLastEnforced share z (f z)) ⟨engine, workload, some a⟩ =
      ⟨engine, workload, some (zones.foldl (fun a z => a.set z (f z)) a)⟩ := by
  induction zones generalizing a with
  | nil => rfl
  | cons z rest ih => exact ih (a.set z (f z))

end Share

/-- The reports of a tick on a workload. -/
def Tick.reports (id : String) (t : Tick) : List Report :=
  (t.outcomes.filter (·.workload = id)).map fun o => ⟨o.zoneSet, o.verdict⟩

namespace Scheduler

variable {s : Scheduler} {id : String} {w : Workload} {recorded : Observations}

theorem share_foldl_setLastEnforced (zones : List ZoneSet) (f : ZoneSet → Capacity) (other : String)
    (s : Scheduler) : (zones.foldl (fun s z => s.setLastEnforced other z (f z)) s).share id =
      if other = id then zones.foldl (fun share z => share.setLastEnforced z (f z)) (s.share id)
      else s.share id := by
  induction zones generalizing s with
  | nil => exact (ite_self _).symm
  | cons z rest ih =>
    rw [List.foldl_cons, ih, share_setLastEnforced]
    by_cases own : other = id <;> simp [own]

theorem exists_enroll (absent : (s.share w.id).engine = none) (recorded : Observations) :
    ∃ after, s.enroll recorded w = .ok after ∧ ∀ id, after.share id =
      if w.id = id then Share.enrolled w recorded[w.id]? else s.share id := by
  have added : s.add w = .ok (s.added w) := by
    rw [add_eq, absent]
    rfl
  rw [enroll, added]
  cases recorded[w.id]? with
  | none => exact ⟨s.added w, rfl, share_added s w⟩
  | some o =>
    refine ⟨(s.added w).seed w o, rfl, fun id => ?_⟩
    rw [seed, share_foldl_setLastEnforced, share_added]
    by_cases own : w.id = id
    · rw [if_pos own, if_pos own, if_pos own, Share.fresh, Share.foldl_setLastEnforced,
        Workload.foldl_set_initial]
      rfl
    · rw [if_neg own, if_neg own, if_neg own]

theorem exists_enrollAll {workloads : List Workload} (distinct : (workloads.map Workload.id).Nodup)
    (absent : ∀ w ∈ workloads, (s.share w.id).engine = none) (recorded : Observations) :
    ∃ after, workloads.foldlM (fun s w => s.enroll recorded w) s = .ok after ∧
      (∀ id ∉ workloads.map Workload.id, after.share id = s.share id) ∧
      ∀ w ∈ workloads, after.share w.id = Share.enrolled w recorded[w.id]? := by
  induction workloads generalizing s with
  | nil => exact ⟨s, rfl, fun _ _ => rfl, fun _ mem => by cases mem⟩
  | cons w rest ih =>
    obtain ⟨fresh, others⟩ := List.nodup_cons.mp distinct
    obtain ⟨next, enrolled, shares⟩ := exists_enroll (absent w List.mem_cons_self) recorded
    have apart : ∀ other ∈ rest, w.id ≠ other.id := by
      intro other mem same
      exact fresh (List.mem_map.mpr ⟨other, mem, same.symm⟩)
    -- Enrolling one workload leaves the others as absent as they were.
    obtain ⟨after, all, untouched, kept⟩ := ih others (s := next) (by
      intro other mem
      rw [shares, if_neg (apart other mem)]
      exact absent other (List.mem_cons_of_mem _ mem))
    refine ⟨after, ?_, ?_, ?_⟩
    · rw [List.foldlM_cons, enrolled]
      exact all
    · intro id unlisted
      simp only [List.map_cons, List.mem_cons, not_or] at unlisted
      rw [untouched id unlisted.2, shares, if_neg (Ne.symm unlisted.1)]
    · intro other mem
      rcases List.mem_cons.mp mem with rfl | mem
      · rw [untouched _ fresh, shares, if_pos rfl]
      · exact kept other mem

/-- Workloads with different ids can all be enrolled. -/
theorem exists_start {workloads : List Workload} (distinct : (workloads.map Workload.id).Nodup)
    (recorded : Observations) : ∃ s, start workloads recorded = .ok s ∧
      ∀ w ∈ workloads, s.share w.id = Share.enrolled w recorded[w.id]? := by
  obtain ⟨s, started, -, kept⟩ := exists_enrollAll (s := new) distinct (fun _ _ => rfl) recorded
  exact ⟨s, started, kept⟩

theorem reports_tick {o : Observation} (enrolled : s.share w.id = Share.enrolled w (some o))
    (found : recorded[w.id]? = some o) (now later : Nat) :
    Tick.reports w.id ⟨(s.tick (.ofRecord later (some recorded))).1,
      (s.tick (.ofRecord later (some recorded))).2.1⟩ = w.reports o now := by
  have ran : (Share.enrolled w (some o)).run? w.id (.ofRecord later (some recorded)) =
      some (w.engine.enforceCycle (w.cycle (w.seeded o)) o.statistics o.roster later) := by
    simp only [Share.run?, Share.enrolled, Surroundings.ofRecord, Option.bind_some, found]
    rfl
  have outcomes := outcomes_share s (.ofRecord later (some recorded)) w.id
  rw [enrolled, Share.outcomes, ran] at outcomes
  rw [Tick.reports, w.reports_now o now later]
  show ((s.outcomes (.ofRecord later (some recorded))).filter _).map _ = _
  rw [outcomes, List.map_map]
  rfl

/-- A scheduler can be started with all workloads that settings describe. Of each that was recorded its
first tick reports what an evaluation of the workload on its own reports, whatever the times of both and
whatever ticks follow. Neither reports that it waits for a cooldown. -/
theorem reports_first_tick {settings : Settings} {workloads : List Workload}
    (resolved : settings.resolve = .ok workloads) (recorded : Observations) :
    ∃ s, start workloads recorded = .ok s ∧
      ∀ id w o, workloads.find? (·.id = id) = some w → recorded[id]? = some o →
      ∀ now later others, ∃ first rest,
        (s.run (.ofRecord later (some recorded) :: others)).1 = first :: rest ∧
        first.reports id = w.reports o now ∧
        ∀ r ∈ w.reports o now, ∀ remaining, r.verdict ≠ .error (.cooldown remaining) := by
  obtain ⟨distinct, -⟩ := Settings.distinct_of_resolveFrom resolved
  obtain ⟨s, started, shares⟩ := exists_start distinct recorded
  refine ⟨s, started, ?_⟩
  intro id w o listed found now later others
  have own : w.id = id := by simpa using List.find?_some listed
  subst own
  have enrolled := shares w (List.mem_of_find?_eq_some listed)
  rw [found] at enrolled
  refine ⟨_, _, rfl, reports_tick enrolled found now later, ?_⟩
  intro r reported remaining
  exact Workload.report_ne_cooldown reported remaining

/-- The workload of the settings to start from. -/
def starter (id : String) : Workload where
  id
  zoneSets := [.ofPieces ["zone-a"] (by decide) (by decide), .ofPieces ["zone-b"] (by decide) (by decide)]
  totalMax := .single "memory" 4096
  totalMin := .single "memory" 1024
  cooldown := .default
  policy := {
    current := .single "memory" 1024
    rules := [⟨⟨"heap_used_pct", .avg, .ofMillis 300000, none, none⟩, .integer 20, .integer 80⟩]
    increaseStep := .single "memory" 512
    decreaseStep := .single "memory" 256
    maxCapacity := .single "memory" 2048
    minCapacity := .single "memory" 512 }

/-- Two instances report a value. One zone set holds its maximum, and so does one that the workload does
not have. -/
def observation : Observation where
  statistics := .ofList [(⟨"heap_used_pct", .avg, .ofMillis 300000, none, none⟩,
    ⟨.integer 91, .ofList ["vm-1", "vm-2"]⟩)]
  roster := .ofList [("vm-1", "zone-a"), ("vm-2", "zone-b")]
  lastEnforced := .ofList [(.ofPieces ["zone-b"] (by decide) (by decide), .single "memory" 2048),
    (.whole, .single "memory" 2048)]

/-- Of two workloads one was recorded. Both ways, one of its zone sets grows and the other cannot. -/
theorem reports_first_tick_starter :
    let settings : Settings := ⟨(Settings.starter "db").workloads ++ (Settings.starter "web").workloads⟩
    let recorded : Observations := Std.ExtTreeMap.insert ∅ "web" observation
    settings.resolve = .ok [starter "db", starter "web"] ∧
      [starter "db", starter "web"].find? (·.id = "web") = some (starter "web") ∧
      recorded["web"]? = some observation ∧
      (∃ s first rest, start [starter "db", starter "web"] recorded = .ok s ∧
        (s.run [.ofRecord 8000 (some recorded), .ofRecord 0 none]).1 = first :: rest ∧
        first.reports "web" = (starter "web").reports observation 0 ∧
        ∀ r ∈ (starter "web").reports observation 0, ∀ remaining,
          r.verdict ≠ .error (.cooldown remaining)) ∧
      ((starter "web").reports observation 0).map Report.verdict =
        [.ok (.applied (.single "memory" 1024) (.single "memory" 1536) .up),
          .error (.saturated (.single "memory" 2048) (.single "memory" 2048))] := by
  intro settings recorded
  have resolved : settings.resolve = .ok [starter "db", starter "web"] := by decide +kernel
  have listed : [starter "db", starter "web"].find? (·.id = "web") = some (starter "web") := by
    decide +kernel
  have found : recorded["web"]? = some observation := Std.ExtTreeMap.getElem?_insert_self
  obtain ⟨s, started, agree⟩ := reports_first_tick resolved recorded
  obtain ⟨first, rest, ticked, same, ready⟩ := agree "web" _ _ listed found 0 8000 [.ofRecord 0 none]
  exact ⟨resolved, listed, found, ⟨s, first, rest, started, ticked, same, ready⟩, by decide +kernel⟩

end Scheduler

end Autoscaler
