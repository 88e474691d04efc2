import Autoscaler.Proofs.Settings.Resolution
import Autoscaler.Proofs.Zone.Grammar

/-!
# Zone sets spelled in other ways

The zone sets of a workload may be written in any order and more than once, and each of them, like
the zones of a rule, with its zones in any order, more than once and with blanks around them. None of
this can be told from the workload that the settings describe, and settings that describe none describe
none in another spelling (`resolve_respelled`).
-/

namespace Autoscaler

section
variable {α : Type} {R : α → α → Prop} {xs ys : List α}

/-- Each item of either list has a counterpart in the other, in whatever order they stand and however
often. -/
def Matched (R : α → α → Prop) (xs ys : List α) : Prop :=
  (∀ x ∈ xs, ∃ y ∈ ys, R x y) ∧ ∀ y ∈ ys, ∃ x ∈ xs, R x y

instance [DecidableRel R] : Decidable (Matched R xs ys) := inferInstanceAs (Decidable (_ ∧ _))

theorem Matched.exists_iff {P : α → Prop} (matched : Matched R xs ys)
    (same : ∀ x y, R x y → (P x ↔ P y)) : (∃ x ∈ xs, P x) ↔ ∃ y ∈ ys, P y := by
  constructor
  · rintro ⟨x, mem, holds⟩
    obtain ⟨y, other, related⟩ := matched.1 x mem
    exact ⟨y, other, (same x y related).mp holds⟩
  · rintro ⟨y, mem, holds⟩
    obtain ⟨x, other, related⟩ := matched.2 y mem
    exact ⟨x, other, (same x y related).mpr holds⟩

theorem Matched.eq_nil_iff (matched : Matched R xs ys) : xs = [] ↔ ys = [] := by
  have any := matched.exists_iff (P := fun _ => True) fun _ _ _ => Iff.rfl
  simpa [List.eq_nil_iff_forall_not_mem] using not_congr any

end

/-! ## The same zones -/

namespace Text

variable {p q : String}

/-- Two texts are the same name, each with blanks around it. -/
def SameName (p q : String) : Prop := ∃ name, Pads name p ∧ Pads name q

theorem sameName_iff : SameName p q ↔ trim p = trim q := by
  constructor
  · rintro ⟨name, pads, other⟩
    rw [trim_of_pads pads, trim_of_pads other]
  · intro same
    exact ⟨trim p, pads_trim p, same ▸ pads_trim q⟩

instance : DecidableRel SameName := fun _ _ => decidable_of_iff _ sameName_iff.symm

end Text

namespace ZoneSet

variable {s t : String} {z : ZoneSet} {zs os : List ZoneSet}

/-- Two texts name the same zones between their commas. -/
def Respelled (s t : String) : Prop := Matched Text.SameName (pieces s) (pieces t)

instance : DecidableRel Respelled := fun s t =>
  inferInstanceAs (Decidable (Matched Text.SameName (pieces s) (pieces t)))

theorem parse_respelled (respelled : Respelled s t) : parse s = .ok z ↔ parse t = .ok z := by
  have named (zone : String) : (∃ p ∈ pieces s, Text.trim p = zone) ↔
      ∃ q ∈ pieces t, Text.trim q = zone :=
    respelled.exists_iff fun p q same => by rw [Text.sameName_iff.mp same]
  have blank : (∀ p ∈ pieces s, Text.trim p ≠ "") ↔ ∀ q ∈ pieces t, Text.trim q ≠ "" := by
    simpa using not_congr (named "")
  simp only [parse_eq_ok, blank, named]

theorem distinct_congr (same : ∀ z, z ∈ zs ↔ z ∈ os) : distinct zs = distinct os := by
  have sets : zs.foldl (fun set z => set.insert z) (∅ : Std.ExtTreeSet ZoneSet) =
      os.foldl (fun set z => set.insert z) ∅ := by
    refine Std.ExtTreeSet.ext_mem fun z => ?_
    rw [mem_foldl_insert, mem_foldl_insert, same]
  rw [distinct, sets, distinct]

end ZoneSet

/-! ## The same outcome -/

/-- Two outcomes for a workload are the same, or both report a zone set that cannot be read. -/
inductive SameOutcome (workload : String) {α : Type} :
    Except SettingsError α → Except SettingsError α → Prop
  | same (outcome : Except SettingsError α) : SameOutcome workload outcome outcome
  | unreadable (written other : String) (reason otherReason : ZoneSetError) :
      SameOutcome workload (.error (.invalidZoneSet workload written reason))
        (.error (.invalidZoneSet workload other otherReason))

namespace SameOutcome

variable {id : String} {α β : Type} {a? b? : Except SettingsError α}

theorem bind {f g : α → Except SettingsError β} (first : SameOutcome id a? b?)
    (rest : ∀ a, SameOutcome id (f a) (g a)) : SameOutcome id (a? >>= f) (b? >>= g) := by
  cases first with
  | same =>
    cases a? with
    | error fault => exact .same _
    | ok a => exact rest a
  | unreadable => exact .unreadable ..

theorem ok_iff {a : α} (outcomes : SameOutcome id a? b?) : a? = .ok a ↔ b? = .ok a := by
  cases outcomes with
  | same => exact Iff.rfl
  | unreadable => simp

theorem error {fault : SettingsError} (outcomes : SameOutcome id a? b?) (refused : a? = .error fault) :
    b? = .error fault ∨ (∃ written reason, fault = .invalidZoneSet id written reason) ∧
      ∃ written reason, b? = .error (.invalidZoneSet id written reason) := by
  cases outcomes with
  | same => exact .inl refused
  | unreadable written other reason otherReason =>
    cases refused
    exact .inr ⟨⟨written, reason, rfl⟩, other, otherReason, rfl⟩

theorem map (f : α → β) (outcomes : SameOutcome id a? b?) : SameOutcome id (a?.map f) (b?.map f) := by
  cases outcomes with
  | same => exact .same _
  | unreadable => exact .unreadable ..

theorem mapM {f : α → Except SettingsError β} {xs ys : List α}
    (items : List.Forall₂ (fun x y => SameOutcome id (f x) (f y)) xs ys) :
    SameOutcome id (xs.mapM f) (ys.mapM f) := by
  induction items with
  | nil => exact .same _
  | cons first _ ih =>
    rw [List.mapM_cons, List.mapM_cons]
    exact first.bind fun _ => ih.bind fun _ => .same _

end SameOutcome

variable {id : String}

/-- A text is read as the zone set of a workload, or reported. -/
theorem resolveZoneSet_respelled {s t : String} (respelled : ZoneSet.Respelled s t) :
    SameOutcome id (resolveZoneSet id s) (resolveZoneSet id t) := by
  have read (z : ZoneSet) := ZoneSet.parse_respelled (z := z) respelled
  unfold resolveZoneSet
  cases first : ZoneSet.parse s with
  | ok z =>
    rw [(read z).mp first]
    exact .same _
  | error reason =>
    cases second : ZoneSet.parse t with
    | ok z => cases first.symm.trans ((read z).mpr second)
    | error other => exact .unreadable ..

theorem resolveScope_respelled {zone other : Option String}
    (respelled : Option.Rel ZoneSet.Respelled zone other) :
    SameOutcome id (resolveScope id zone) (resolveScope id other) := by
  cases respelled with
  | none => exact .same _
  | some text => exact (resolveZoneSet_respelled text).map some

theorem resolveZoneSets_of_readable (id : String) {texts : List String} (any : texts ≠ [])
    (readable : ∀ text ∈ texts, ∃ z, ZoneSet.parse text = .ok z) :
    ∃ zs, (∀ z, z ∈ zs ↔ ∃ text ∈ texts, ZoneSet.parse text = .ok z) ∧
      resolveZoneSets id (some texts) = .ok (ZoneSet.distinct zs) := by
  obtain ⟨zs, read⟩ := exists_forall₂.mpr readable
  have all : texts.mapM (resolveZoneSet id) = .ok zs :=
    mapM_eq_ok.mpr (read.imp fun _ _ => resolveZoneSet_eq_ok.mpr)
  refine ⟨zs, fun z => ZoneSet.mem_iff_of_read read, ?_⟩
  cases texts with
  | nil => exact absurd rfl any
  | cons => exact bind_eq_ok.mpr ⟨zs, all, rfl⟩

theorem resolveZoneSets_of_unreadable (id : String) {texts : List String} {text : String}
    (listed : text ∈ texts) (unreadable : ∀ z, ZoneSet.parse text ≠ .ok z) : ∃ written reason,
      resolveZoneSets id (some texts) = .error (.invalidZoneSet id written reason) := by
  cases all : texts.mapM (resolveZoneSet id) with
  | ok zs =>
    obtain ⟨z, -, read⟩ := exists_mem_of_forall₂ (mapM_eq_ok.mp all).flip listed
    exact absurd (resolveZoneSet_eq_ok.mp read) (unreadable z)
  | error fault =>
    obtain ⟨-, written, -, -, -, refused⟩ := mapM_eq_error.mp all
    obtain ⟨reason, -, rfl⟩ := resolveZoneSet_eq_error.mp refused
    refine ⟨written, reason, ?_⟩
    cases texts with
    | nil => cases listed
    | cons => exact bind_eq_error.mpr (.inl all)

theorem resolveZoneSets_respelled {written other : Option (List String)}
    (respelled : Option.Rel (Matched ZoneSet.Respelled) written other) :
    SameOutcome id (resolveZoneSets id written) (resolveZoneSets id other) := by
  cases respelled with
  | none => exact .same _
  | @some texts others matched =>
    have read (z : ZoneSet) : (∃ text ∈ texts, ZoneSet.parse text = .ok z) ↔
        ∃ text ∈ others, ZoneSet.parse text = .ok z :=
      matched.exists_iff fun _ _ => ZoneSet.parse_respelled
    have refused : (∃ text ∈ texts, ∀ z, ZoneSet.parse text ≠ .ok z) ↔
        ∃ text ∈ others, ∀ z, ZoneSet.parse text ≠ .ok z :=
      matched.exists_iff fun _ _ text => forall_congr' fun z => not_congr (ZoneSet.parse_respelled text)
    by_cases unreadable : ∃ text ∈ texts, ∀ z, ZoneSet.parse text ≠ .ok z
    · obtain ⟨text, listed, unread⟩ := unreadable
      obtain ⟨text', listed', unread'⟩ := refused.mp ⟨text, listed, unread⟩
      obtain ⟨_, _, first⟩ := resolveZoneSets_of_unreadable id listed unread
      obtain ⟨_, _, second⟩ := resolveZoneSets_of_unreadable id listed' unread'
      rw [first, second]
      exact .unreadable ..
    by_cases empty : texts = []
    · rw [empty, matched.eq_nil_iff.mp empty]
      exact .same _
    obtain ⟨zs, mem, first⟩ := resolveZoneSets_of_readable id empty
      (by simpa using unreadable)
    obtain ⟨os, mem', second⟩ := resolveZoneSets_of_readable id (mt matched.eq_nil_iff.mpr empty)
      (by simpa using mt refused.mpr unreadable)
    have same : ZoneSet.distinct zs = ZoneSet.distinct os :=
      ZoneSet.distinct_congr fun z => by rw [mem, mem', read]
    rw [first, second, same]
    exact .same _

/-! ## The same workload -/

/-- A rule with the same zones. -/
def RuleSettings.Respelled (r o : RuleSettings) : Prop :=
  ∃ zone, Option.Rel ZoneSet.Respelled r.zone zone ∧ o = { r with zone }

/-- A policy with the same zones in each of its rules. -/
def PolicySettings.Respelled (p o : PolicySettings) : Prop :=
  ∃ rules, List.Forall₂ RuleSettings.Respelled p.rules rules ∧ o = { p with rules }

/-- Settings with the same zone sets and the same zones in each rule. -/
def WorkloadSettings.Respelled (s o : WorkloadSettings) : Prop :=
  ∃ zoneSets policy, Option.Rel (Matched ZoneSet.Respelled) s.zoneSets zoneSets ∧
    Option.Rel PolicySettings.Respelled s.policy policy ∧ o = { s with zoneSets, policy }

theorem RuleSettings.sameOutcome (id : String) {r o : RuleSettings} (respelled : r.Respelled o) :
    SameOutcome id (r.resolve id) (o.resolve id) := by
  obtain ⟨zone, scope, rfl⟩ := respelled
  -- what is read of a rule before its zones is the same, whatever they are
  refine .bind (.same _) fun _ => .bind (.same _) fun _ => .bind (.same _) fun _ =>
    .bind (.same _) fun _ => ?_
  exact .bind (resolveScope_respelled scope) fun _ => .same _

theorem PolicySettings.sameOutcome {p o : PolicySettings} (respelled : p.Respelled o) :
    SameOutcome id (p.resolve id) (o.resolve id) := by
  obtain ⟨rules, each, rfl⟩ := respelled
  have resolved := SameOutcome.mapM
    (each.imp fun _ _ rule => RuleSettings.sameOutcome id rule)
  exact .bind (.bind resolved fun _ => .same _) fun _ => .same _

namespace WorkloadSettings

variable {s o : WorkloadSettings}

theorem sameOutcome (respelled : s.Respelled o) :
    SameOutcome (Text.trim s.id) s.resolve o.resolve := by
  obtain ⟨zoneSets, policy, sets, policies, rfl⟩ := respelled
  simp only [resolve]
  split
  · exact .same _
  · refine .bind (resolveZoneSets_respelled sets) fun _ => ?_
    generalize s.policy = given at policies ⊢
    cases policies with
    | none => exact .same _
    | some rules => exact (PolicySettings.sameOutcome rules).bind fun _ => .same _

/-- Settings with the same zones describe the same workload, or none for the same reason, or none as a
zone set in each of the two cannot be read. -/
theorem resolve_respelled (respelled : s.Respelled o) :
    (∀ w, s.resolve = .ok w ↔ o.resolve = .ok w) ∧
      ∀ fault, s.resolve = .error fault → o.resolve = .error fault ∨
        (∃ written reason, fault = .invalidZoneSet (Text.trim s.id) written reason) ∧
          ∃ written reason, o.resolve = .error (.invalidZoneSet (Text.trim s.id) written reason) := by
  have outcomes := sameOutcome respelled
  exact ⟨fun _ => outcomes.ok_iff, fun _ => outcomes.error⟩

/-- Settings without totals, with a rule for some zones. -/
def confined (zoneSets : List String) (zone : String) : WorkloadSettings where
  id := "db"
  zoneSets := some zoneSets
  totalMax := none
  totalMin := none
  cooldown := none
  policy := some {
    initial := some (.single "memory" 1024)
    increaseStep := some (.single "memory" 512)
    decreaseStep := some (.single "memory" 256)
    maxCapacity := some (.single "memory" 2048)
    minCapacity := some (.single "memory" 512)
    rules := [{
      metric := some "heap_used_pct", aggregation := some .avg, window := some "5m"
      zone := some zone, instanceId := none
      low := some (.integer 20), high := some (.integer 80) }] }

theorem confined_respelled {zoneSets others : List String} {zone other : String}
    (sets : Matched ZoneSet.Respelled zoneSets others) (scope : ZoneSet.Respelled zone other) :
    (confined zoneSets zone).Respelled (confined others other) :=
  ⟨_, _, .some sets, .some ⟨_, .cons ⟨_, .some scope, rfl⟩ .nil, rfl⟩, rfl⟩

/-- Two zone sets are counted twice for the totals, however often one of them is named. A zone set with
a blank zone is refused wherever it stands. -/
theorem resolve_respelled_confined :
    let once := confined ["us-a,us-b", "eu"] "us-a,us-b"
    let again := confined ["eu ", "us-b, us-a,\tus-b", "eu"] " us-b,us-a "
    let last := confined ["eu", ",us-a"] "eu"
    let first := confined ["us-a, ", "eu"] "eu"
    (∃ w, once.resolve = .ok w ∧ again.resolve = .ok w ∧ w.totalMax = .single "memory" 4096) ∧
      last.resolve = .error (.invalidZoneSet "db" ",us-a" (.blankZone ",us-a")) ∧
      ∃ written reason, first.resolve = .error (.invalidZoneSet "db" written reason) := by
  intro once again last first
  have same := resolve_respelled (s := once) (o := again)
    (confined_respelled (by decide +kernel) (by decide +kernel))
  have refused := resolve_respelled (s := last) (o := first)
    (confined_respelled (by decide +kernel) (by decide +kernel))
  have blank : last.resolve = .error (.invalidZoneSet "db" ",us-a" (.blankZone ",us-a")) := by
    decide +kernel
  let both : ZoneSet := .ofPieces ["us-a", "us-b"] (by decide) (by decide)
  refine ⟨?_, blank, ?_⟩
  · have resolved : once.resolve = .ok {
        id := "db"
        zoneSets := [.ofPieces ["eu"] (by decide) (by decide), both]
        totalMax := .single "memory" 4096
        totalMin := .single "memory" 1024
        cooldown := .default
        policy := {
          current := .single "memory" 1024
          rules := [⟨⟨"heap_used_pct", .avg, .ofMillis 300000, none, some both⟩, .integer 20, .integer 80⟩]
          increaseStep := .single "memory" 512
          decreaseStep := .single "memory" 256
          maxCapacity := .single "memory" 2048
          minCapacity := .single "memory" 512 } } := by decide +kernel
    exact ⟨_, resolved, (same.1 _).mp resolved, rfl⟩
  · obtain same | ⟨-, other⟩ := refused.2 _ blank
    · exact ⟨_, _, same⟩
    · rwa [show Text.trim last.id = "db" by decide +kernel] at other

end WorkloadSettings

end Autoscaler
