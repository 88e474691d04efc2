import Autoscaler.Document.Settings
import Autoscaler.Proofs.Document.Record
import Autoscaler.Proofs.Zone.Text
import Autoscaler.Settings.Resolution

/-!
# Settings read back

The text that is written for settings reads as the settings (`Settings.ofText_text`). Values and
capacities are kept, and so is each record when the values of its fields are: rules and policies,
cooldown windows, workloads.
-/

namespace Autoscaler

open Toml (Distinct Plain arranged arrangedFields depthLimit)

variable {n : Nat}

/-! ## Values -/

theorem kept_aggregation (a : Aggregation) :
    Kept n (Aggregation.ofDocument? .toml) (.text ·.name) a := by
  refine ⟨(kept_text a.name).orderly, ?_⟩
  cases a <;> rfl

theorem fitsSigned_iff {i : Int} : fitsSigned i = true ↔ -signedLimit ≤ i ∧ i < signedLimit := by
  rw [fitsSigned, Bool.and_eq_true, decide_eq_true_eq, decide_eq_true_eq]

theorem fitsSigned_toInt (i : Int64) : fitsSigned i.toInt = true := by
  have low := i.le_toInt
  have high := i.toInt_lt
  have limit : signedLimit = 9223372036854775808 := rfl
  rw [fitsSigned_iff]
  omega

theorem kept_value (v : StatValue) : Kept n StatValue.ofDocument? StatValue.toDocument v := by
  cases v with
  | integer i =>
    have fits := fitsSigned_toInt i
    refine ⟨.plain (.item (.inl fits)), ?_⟩
    simp [StatValue.toDocument, arranged, StatValue.ofDocument?, StatValue.ofInt?, fits]
  | float x => exact ⟨.plain (.item (.inl trivial)), rfl⟩
  | text s => exact ⟨(kept_text s).orderly, rfl⟩

/-- The amounts of a capacity are integers under names of their own. -/
theorem kept_capacity {c : Capacity} (shallow : n < depthLimit) (fits : ∀ d, c.get d < signedLimit) :
    Kept n Capacity.ofDocument? Capacity.toDocument c := by
  have written : c.toDocument = .table (c.toList.map fun e => (e.1, .integer e.2)) := rfl
  have plain : ∀ f ∈ c.toList.map fun e => (e.1, Document.integer e.2), Plain f.2 := by
    intro f mem
    obtain ⟨⟨d, amount⟩, listed, rfl⟩ := List.mem_map.mp mem
    obtain ⟨rfl, -⟩ := Capacity.mem_toList.mp listed
    have small := fits d
    exact .item (.inl (fitsSigned_iff.mpr (by omega)))
  have distinct : Distinct (c.toList.map fun e => (e.1, Document.integer e.2)) := by
    rw [Distinct, List.map_map, List.nodup_iff_pairwise_ne, List.pairwise_map]
    refine Std.ExtTreeMap.distinct_keys_toList.imp ?_
    intro e f apart same
    exact apart (Std.LawfulEqCmp.compare_eq_iff_eq.mpr same)
  have same : arranged c.toDocument = c.toDocument := by
    rw [written]
    exact congrArg Document.table (Toml.arrangedFields_of_plain plain)
  refine ⟨written ▸ .table shallow distinct fun f mem => .plain (plain f mem), ?_⟩
  rw [same]
  exact c.ofDocument?_toDocument

/-! ## Fields -/

theorem pair_eq_present (name : String) (d : Document) : [(name, d)] = present [(name, some d)] := rfl

theorem field_eq_present {α : Type} (name : String) (write : α → Document) (value : Option α) :
    field name write value = present [(name, value.map write)] := by
  cases value <;> rfl

/-! ## Rules -/

namespace RuleSettings

/-- The values of a rule under the names of its fields. -/
def entries (r : RuleSettings) : List (String × Option Document) :=
  [("metric", r.metric.map .text), ("aggregation", r.aggregation.map (.text ·.name)),
    ("window", r.window.map .text), ("zone", r.zone.map .text),
    ("instance", r.instanceId.map .text), ("low", r.low.map StatValue.toDocument),
    ("high", r.high.map StatValue.toDocument)]

theorem toDocument_eq (r : RuleSettings) : r.toDocument = .table (present r.entries) := by
  simp only [toDocument, field_eq_present, ← present_append]
  rfl

theorem record (r : RuleSettings) : Record n r.entries where
  distinct := by simp [entries]
  each := by simp [entries, (kept_text _).orderly, (kept_value _).orderly]

theorem kept (shallow : n < depthLimit) (r : RuleSettings) :
    Kept n (ofDocument? .toml) toDocument r := by
  have record : Record (n + 1) r.entries := r.record
  have metric := record.optional?_text "metric" r.metric (by simp [entries])
  have aggregation := record.optional?_eq "aggregation" r.aggregation (by simp [entries])
    (fun a _ => kept_aggregation a) rfl
  have window := record.optional?_text "window" r.window (by simp [entries])
  have zone := record.optional?_text "zone" r.zone (by simp [entries])
  have instanceId := record.optional?_text "instance" r.instanceId (by simp [entries])
  have low := record.optional?_eq "low" r.low (by simp [entries]) (fun v _ => kept_value v) rfl
  have high := record.optional?_eq "high" r.high (by simp [entries]) (fun v _ => kept_value v) rfl
  refine record.kept shallow r.toDocument_eq ?_
  simp only [ofDocument?, Dialect.record?, metric, aggregation, window, zone, instanceId, low, high,
    Option.bind_eq_bind, Option.bind_some]
  rfl

end RuleSettings

/-! ## Policies -/

namespace PolicySettings

/-- The values of a policy under the names of its fields. -/
def entries (p : PolicySettings) : List (String × Option Document) :=
  [("initial", p.initial.map Capacity.toDocument),
    ("increase_step", p.increaseStep.map Capacity.toDocument),
    ("decrease_step", p.decreaseStep.map Capacity.toDocument),
    ("max_capacity", p.maxCapacity.map Capacity.toDocument),
    ("min_capacity", p.minCapacity.map Capacity.toDocument),
    ("rule", some (.list (p.rules.map RuleSettings.toDocument)))]

theorem toDocument_eq (p : PolicySettings) : p.toDocument = .table (present p.entries) := by
  simp only [toDocument, field_eq_present, pair_eq_present, ← present_append]
  rfl

theorem kept_rules (shallow : n < depthLimit) (rules : List RuleSettings) :
    Kept n (·.listOf? (RuleSettings.ofDocument? .toml))
      (fun rules => .list (rules.map RuleSettings.toDocument)) rules :=
  kept_list shallow (fun _ _ => rfl) fun r _ => r.kept shallow

variable {p : PolicySettings} (fits : ∀ c ∈ p.capacities, ∀ d, c.get d < signedLimit)
include fits

theorem kept_of_mem (shallow : n < depthLimit) :
    ∀ bound ∈ [p.initial, p.increaseStep, p.decreaseStep, p.maxCapacity, p.minCapacity],
      ∀ c ∈ bound, Kept n Capacity.ofDocument? Capacity.toDocument c := by
  intro bound listed c mem
  exact kept_capacity shallow (fits c (List.mem_flatMap.mpr ⟨bound, listed, Option.mem_toList.mpr mem⟩))

theorem record (shallow : n < depthLimit) : Record n p.entries where
  distinct := by simp [entries]
  each := by
    have bounds := fun bound listed => orderly_of_kept (kept_of_mem fits shallow bound listed)
    simp only [entries, List.forall_mem_cons]
    refine ⟨bounds p.initial (by simp), bounds p.increaseStep (by simp),
      bounds p.decreaseStep (by simp), bounds p.maxCapacity (by simp),
      bounds p.minCapacity (by simp), ?_, nofun⟩
    rintro d ⟨⟩
    exact (kept_rules shallow p.rules).orderly

theorem kept (shallow : n + 1 < depthLimit) : Kept n (ofDocument? .toml) toDocument p := by
  have record : Record (n + 1) p.entries := record fits shallow
  have bounds := kept_of_mem fits shallow
  have initial := record.optional?_eq "initial" p.initial (by simp [entries])
    (bounds p.initial (by simp)) rfl
  have increaseStep := record.optional?_eq "increase_step" p.increaseStep (by simp [entries])
    (bounds p.increaseStep (by simp)) rfl
  have decreaseStep := record.optional?_eq "decrease_step" p.decreaseStep (by simp [entries])
    (bounds p.decreaseStep (by simp)) rfl
  have maxCapacity := record.optional?_eq "max_capacity" p.maxCapacity (by simp [entries])
    (bounds p.maxCapacity (by simp)) rfl
  have minCapacity := record.optional?_eq "min_capacity" p.minCapacity (by simp [entries])
    (bounds p.minCapacity (by simp)) rfl
  have rules := record.defaulted?_eq "rule" [] (by simp [entries]) (kept_rules shallow p.rules)
  refine record.kept (by omega) p.toDocument_eq ?_
  simp only [ofDocument?, Dialect.record?, initial, increaseStep, decreaseStep, maxCapacity,
    minCapacity, rules, Option.bind_eq_bind, Option.bind_some]
  rfl

end PolicySettings

/-! ## Cooldowns -/

namespace CooldownSettings

/-- The values of cooldown windows under the names of their fields. -/
def entries (c : CooldownSettings) : List (String × Option Document) :=
  [("add", c.add.map .text), ("remove", c.remove.map .text)]

theorem toDocument_eq (c : CooldownSettings) : c.toDocument = .table (present c.entries) := by
  simp only [toDocument, field_eq_present, ← present_append]
  rfl

theorem record (c : CooldownSettings) : Record n c.entries where
  distinct := by simp [entries]
  each := by simp [entries, (kept_text _).orderly]

theorem kept (shallow : n < depthLimit) (c : CooldownSettings) :
    Kept n (ofDocument? .toml) toDocument c := by
  have record : Record (n + 1) c.entries := c.record
  have add := record.optional?_text "add" c.add (by simp [entries])
  have remove := record.optional?_text "remove" c.remove (by simp [entries])
  refine record.kept shallow c.toDocument_eq ?_
  simp only [ofDocument?, Dialect.record?, add, remove, Option.bind_eq_bind, Option.bind_some]
  rfl

end CooldownSettings

/-! ## Workloads -/

namespace WorkloadSettings

/-- The values of a workload under the names of its fields. -/
def entries (w : WorkloadSettings) : List (String × Option Document) :=
  [("id", some (.text w.id)),
    ("zone_sets", w.zoneSets.map fun names => .list (names.map .text)),
    ("total_max", w.totalMax.map Capacity.toDocument),
    ("total_min", w.totalMin.map Capacity.toDocument),
    ("cooldown", w.cooldown.map CooldownSettings.toDocument),
    ("policy", w.policy.map PolicySettings.toDocument)]

theorem toDocument_eq (w : WorkloadSettings) : w.toDocument = .table (present w.entries) := by
  simp only [toDocument, field_eq_present, pair_eq_present, ← present_append]
  rfl

variable {w : WorkloadSettings} (fits : ∀ c ∈ w.capacities, ∀ d, c.get d < signedLimit)
include fits

theorem kept_of_mem (shallow : n < depthLimit) : ∀ bound ∈ [w.totalMax, w.totalMin],
    ∀ c ∈ bound, Kept n Capacity.ofDocument? Capacity.toDocument c := by
  intro bound listed c mem
  refine kept_capacity shallow (fits c (List.mem_append_left _ ?_))
  exact List.mem_flatMap.mpr ⟨bound, listed, Option.mem_toList.mpr mem⟩

theorem kept_policy (shallow : n + 1 < depthLimit) :
    ∀ p ∈ w.policy, Kept n (PolicySettings.ofDocument? .toml) PolicySettings.toDocument p := by
  intro p mem
  refine PolicySettings.kept (fun c listed => fits c (List.mem_append_right _ ?_)) shallow
  exact List.mem_flatMap.mpr ⟨p, Option.mem_toList.mpr mem, listed⟩

theorem record (shallow : n + 1 < depthLimit) : Record n w.entries where
  distinct := by simp [entries]
  each := by
    have bounds := fun bound listed => orderly_of_kept
      (kept_of_mem fits (Nat.lt_of_succ_lt shallow) bound listed)
    simp only [entries, List.forall_mem_cons]
    refine ⟨?_, orderly_of_kept fun names _ => kept_texts names, bounds w.totalMax (by simp),
      bounds w.totalMin (by simp), orderly_of_kept fun c _ => c.kept (Nat.lt_of_succ_lt shallow),
      orderly_of_kept (kept_policy fits shallow), nofun⟩
    rintro d ⟨⟩
    exact (kept_text w.id).orderly

theorem kept (shallow : n + 2 < depthLimit) : Kept n (ofDocument? .toml) toDocument w := by
  have record : Record (n + 1) w.entries := record fits shallow
  have bounds := kept_of_mem fits (Nat.lt_of_succ_lt shallow)
  have id := record.required?_eq "id" (by simp [entries]) (kept_text w.id)
  have zoneSets := record.optional?_eq "zone_sets" w.zoneSets (by simp [entries])
    (fun names _ => kept_texts names) rfl
  have totalMax := record.optional?_eq "total_max" w.totalMax (by simp [entries])
    (bounds w.totalMax (by simp)) rfl
  have totalMin := record.optional?_eq "total_min" w.totalMin (by simp [entries])
    (bounds w.totalMin (by simp)) rfl
  have cooldown := record.optional?_eq "cooldown" w.cooldown (by simp [entries])
    (fun c _ => c.kept (Nat.lt_of_succ_lt shallow)) rfl
  have policy := record.optional?_eq "policy" w.policy (by simp [entries])
    (kept_policy fits shallow) rfl
  refine record.kept (by omega) w.toDocument_eq ?_
  simp only [ofDocument?, Dialect.record?, id, zoneSets, totalMax, totalMin, cooldown, policy,
    Option.bind_eq_bind, Option.bind_some]
  rfl

end WorkloadSettings

/-! ## Settings -/

namespace Settings

variable {s : Settings}

theorem isWritable_iff : s.isWritable = true ↔
    ∀ c ∈ s.workloads.flatMap WorkloadSettings.capacities, ∀ d, c.get d < signedLimit := by
  rw [isWritable, List.all_eq_true]
  refine forall₂_congr fun c _ => ?_
  rw [List.all_eq_true]
  constructor
  · intro small d
    by_cases none : c.get d = 0
    · rw [none]
      decide
    · simpa using small _ (Capacity.mem_toList.mpr ⟨rfl, none⟩)
  · rintro small ⟨d, amount⟩ listed
    obtain ⟨rfl, -⟩ := Capacity.mem_toList.mp listed
    simpa using small d

section
variable (fits : ∀ c ∈ s.workloads.flatMap WorkloadSettings.capacities, ∀ d, c.get d < signedLimit)
include fits

theorem kept_workloads : Kept 1 (·.listOf? (WorkloadSettings.ofDocument? .toml))
    (fun workloads => .list (workloads.map WorkloadSettings.toDocument)) s.workloads := by
  refine kept_list (by decide) (fun _ _ => rfl) fun w mem => WorkloadSettings.kept ?_ (by decide)
  exact fun c listed => fits c (List.mem_flatMap.mpr ⟨w, mem, listed⟩)

theorem ofText_write : ofText (Toml.write s.toFields) = .ok s := by
  have kept := kept_workloads fits
  have record : Record 1 [("workload", some (.list (s.workloads.map WorkloadSettings.toDocument)))] := by
    refine ⟨by simp, ?_⟩
    simpa using kept.orderly
  have workloads := record.defaulted?_eq "workload" [] (by simp) kept
  have read := Toml.read?_write (Record.distinct_present record.distinct) record.orderly_present
  have fields : s.toFields =
      present [("workload", some (.list (s.workloads.map WorkloadSettings.toDocument)))] := rfl
  rw [ofText, fields, read]
  simp only [ofDocument?, Dialect.record?, workloads, Option.bind_eq_bind, Option.bind_some]
  rfl

end

/-- Settings whose amounts fit an integer with a sign are written, and what is written reads as the
settings. So a file resolves to what the settings in it resolve to, or is refused for the same
reason. -/
theorem ofText_text (s : Settings)
    (fits : ∀ c ∈ s.workloads.flatMap WorkloadSettings.capacities, ∀ d, c.get d < signedLimit) :
    ∃ written, s.text = .ok written ∧ ofText written = .ok s ∧
      (ofText written >>= resolve) = s.resolve := by
  have read := ofText_write fits
  refine ⟨Toml.write s.toFields, ?_, read, ?_⟩
  · rw [text, if_pos (isWritable_iff.mpr fits)]
  · rw [read]
    rfl

/-- Thresholds of all kinds that look alike stay apart, and so do what is left out and what is empty. -/
theorem ofText_text_alike :
    let rule := fun low high => (⟨none, none, none, none, none, some low, some high⟩ : RuleSettings)
    let rules := [rule (.integer 1) (.float (.ofInt 1)), rule (.text "1") (.text "1.0")]
    let s : Settings := ⟨[
      { id := "a \"b\"", zoneSets := some [], totalMax := some (.single "gpu type" 2)
        totalMin := some 0, cooldown := some ⟨none, none⟩
        policy := some ⟨none, none, none, none, none, rules⟩ },
      ⟨"", none, none, none, none, none⟩]⟩
    let written := "\n".intercalate
      ["[[workload]]", "id = 'a \"b\"'", "zone_sets = []", "",
        "[workload.total_max]", "\"gpu type\" = 2", "",
        "[workload.total_min]", "",
        "[workload.cooldown]", "",
        "[[workload.policy.rule]]", "low = 1", "high = 1.0", "",
        "[[workload.policy.rule]]", "low = \"1\"", "high = \"1.0\"", "",
        "[[workload]]", "id = \"\"", ""]
    (∀ c ∈ s.workloads.flatMap WorkloadSettings.capacities, ∀ d, c.get d < signedLimit) ∧
      s.text = .ok written ∧ ofText written = .ok s := by
  intro rule rules s written
  have fits := (isWritable_iff (s := s)).mp (by decide +kernel)
  obtain ⟨other, text, back, -⟩ := ofText_text s fits
  have same : s.text = .ok written := by decide +kernel
  have equal : other = written := Except.ok.inj (text.symm.trans same)
  exact ⟨fits, same, equal ▸ back⟩

end Settings

end Autoscaler
