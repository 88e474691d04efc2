import Autoscaler.Proofs.Enforcement.Cooldown
import Mathlib.Data.List.Chain
import Mathlib.Data.List.Pairwise
import Mathlib.Order.Bounds.Basic

/-!
# The end of a cooldown

All that a gate keeps of what it has seen is the last sighting and one time. That time is the latest
end of the windows which the sightings have opened, each after the one before it, and there is none as
long as the instances stay what they were at first (`answers_from_sightings`). It does not matter in
which order the times come.
-/

namespace Autoscaler.Cooldown

/-- The instances of two sightings are the same. -/
def Sighting.Same (a b : Sighting) : Prop := a.instances = b.instances

instance : Trans Sighting.Same Sighting.Same Sighting.Same := ⟨Eq.trans⟩

instance : Std.Symm Sighting.Same := ⟨fun _ _ => Eq.symm⟩

/-- The second sighting comes right after the first. -/
def InRow (seen : List Sighting) (a b : Sighting) : Prop :=
  ∃ before after, seen = before ++ a :: b :: after

/-- The ends of the windows that the changes between sightings in a row have opened, in whole
milliseconds and at most the largest time. -/
def Windows.ends (w : Windows) (seen : List Sighting) : Set Nat :=
  {t | ∃ a b window, InRow seen a b ∧ w.Opens a.instances.toList b.instances.toList window ∧
    t = min (b.now + min window.millis maxTime) maxTime}

/-- All sightings are of the same instances. -/
def Unchanging (seen : List Sighting) : Prop := ∀ a ∈ seen, ∀ b ∈ seen, a.Same b

variable {seen : List Sighting} {w : Windows}

/-! ## Windows that are opened -/

theorem InRow.append {a b : Sighting} (inRow : InRow seen a b) (later : List Sighting) :
    InRow (seen ++ later) a b := by
  obtain ⟨before, after, rfl⟩ := inRow
  exact ⟨before, after ++ later, by simp⟩

theorem Windows.ends_append (w : Windows) (seen later : List Sighting) :
    w.ends seen ⊆ w.ends (seen ++ later) := by
  rintro t ⟨a, b, window, inRow, opens, rfl⟩
  exact ⟨a, b, window, inRow.append later, opens, rfl⟩

theorem Windows.le_maxTime_of_ends {t : Nat} (ends : t ∈ w.ends seen) : t ≤ maxTime := by
  obtain ⟨a, b, window, -, -, rfl⟩ := ends
  exact Nat.min_le_right _ _

/-- Only a change of the instances opens a window, and every change does. -/
theorem Windows.not_opens_iff {a b : Std.ExtTreeSet String} :
    (∀ window, ¬ w.Opens a.toList b.toList window) ↔ a = b := by
  constructor
  · intro closed
    refine Std.ExtTreeSet.ext_mem fun i => ?_
    by_contra differ
    by_cases had : i ∈ a
    · have lost : i ∉ b := fun has => differ (iff_of_true had has)
      exact closed w.remove (.removed (by simpa using had) (by simpa using lost))
    · have has : i ∈ b := by_contra fun lacks => differ (iff_of_false had lacks)
      exact closed w.add (.added (by simpa using has) (by simpa using had))
  · rintro rfl window opens
    cases opens with
    | added joined absent => exact absent joined
    | removed left absent => exact absent left

/-- Sightings are of the same instances when each is of those of the one before. -/
theorem unchanging_iff_inRow : Unchanging seen ↔ ∀ a b, InRow seen a b → a.Same b := by
  have chain : seen.IsChain Sighting.Same ↔ ∀ a b, InRow seen a b → a.Same b := by
    rw [List.isChain_iff_forall_rel_of_append_cons_cons]
    exact ⟨fun all a b ⟨_, _, split⟩ => all split,
      fun all a b before after split => all a b ⟨before, after, split⟩⟩
  rw [← chain, List.isChain_iff_pairwise]
  constructor
  · intro same
    exact List.pairwise_of_forall_mem_list same
  · intro pairwise a mem b listed
    exact pairwise.forall_of_forall (R := Sighting.Same) (fun _ _ => rfl) mem listed

theorem Windows.ends_eq_empty_iff : w.ends seen = ∅ ↔ Unchanging seen := by
  rw [unchanging_iff_inRow, Set.eq_empty_iff_forall_notMem]
  constructor
  · intro none a b inRow
    exact (not_opens_iff (w := w)).mp fun window opens => none _ ⟨a, b, window, inRow, opens, rfl⟩
  · rintro same t ⟨a, b, window, inRow, opens, -⟩
    exact not_opens_iff.mpr (same a b inRow) window opens

/-! ## The end that a gate keeps -/

/-- The gate with these windows after several sightings. -/
def Windows.gate (w : Windows) (seen : List Sighting) : Gate := (Gate.new w).observeAll seen

namespace Gate

variable {g : Gate} {current : Std.ExtTreeSet String} {now e t : Nat}

theorem ofList_toList (a : Std.ExtTreeSet String) : Std.ExtTreeSet.ofList a.toList = a := by
  refine Std.ExtTreeSet.ext_mem fun i => ?_
  simp [Std.ExtTreeSet.mem_ofList]

theorem exceeds_eq_true {a b : Std.ExtTreeSet String} : exceeds a b = true ↔ ∃ i ∈ a, i ∉ b := by
  rw [← Bool.not_eq_false, exceeds_eq_false]
  simp

theorem extend_cases {window : Duration} {expiresAt : Option Nat} {opened : Bool}
    (ends : (if opened then extend now window expiresAt else expiresAt) = some e) :
    expiresAt = some e ∨ opened = true ∧ e = deadline now window := by
  cases opened with
  | false => exact .inl ends
  | true =>
    cases expiresAt with
    | none => exact .inr ⟨rfl, (Option.some.inj ends).symm⟩
    | some before =>
      have latest : max before (deadline now window) = e := Option.some.inj ends
      rcases Nat.le_total before (deadline now window) with later | earlier
      · exact .inr ⟨rfl, latest.symm.trans (Nat.max_eq_right later)⟩
      · exact .inl (congrArg some ((Nat.max_eq_left earlier).symm.trans latest))

/-- An end that a gate has after a sighting was its end before, or is that of a window which opens. -/
theorem expiresAt_observe (ends : (g.observe current now).expiresAt = some e) :
    g.expiresAt = some e ∨ ∃ previous window, g.previous = some previous ∧
      g.windows.Opens previous.toList current.toList window ∧ e = deadline now window := by
  cases seen : g.previous with
  | none => exact .inl (by simpa [observe, seen] using ends)
  | some previous =>
    simp only [observe, seen] at ends
    rcases extend_cases ends with added | ⟨fewer, due⟩
    · rcases extend_cases added with kept | ⟨more, due⟩
      · exact .inl kept
      · obtain ⟨i, joined, absent⟩ := exceeds_eq_true.mp more
        exact .inr ⟨previous, _, rfl, .added (by simpa using joined) (by simpa using absent), due⟩
    · obtain ⟨i, left, absent⟩ := exceeds_eq_true.mp fewer
      exact .inr ⟨previous, _, rfl, .removed (by simpa using left) (by simpa using absent), due⟩

end Gate

namespace Windows

variable {e t : Nat}

theorem gate_append (w : Windows) (seen later : List Sighting) :
    w.gate (seen ++ later) = (w.gate seen).observeAll later :=
  Gate.observeAll_append _ _ _

theorem windows_gate (w : Windows) (seen : List Sighting) : (w.gate seen).windows = w :=
  Gate.windows_observeAll _ _

/-- A gate remembers the last instances that it has seen, and no others. -/
theorem previous_gate_eq_some {previous : Std.ExtTreeSet String} :
    (w.gate seen).previous = some previous ↔ ∃ before a, seen = before ++ [a] ∧ a.instances = previous := by
  rcases List.eq_nil_or_concat seen with rfl | ⟨before, a, rfl⟩
  · simp [gate, Gate.observeAll, Gate.new]
  · rw [List.concat_eq_append, gate_append]
    show ((w.gate before).observe a.instances a.now).previous = some previous ↔ _
    rw [Gate.previous_observe]
    simp

/-- A gate is shut until the end of every window that was opened. -/
theorem shutUntil_of_ends (ends : t ∈ w.ends seen) : (w.gate seen).ShutUntil t := by
  obtain ⟨a, b, window, ⟨before, after, rfl⟩, opens, rfl⟩ := ends
  have split : before ++ a :: b :: after = (before ++ [a]) ++ b :: after := by simp
  have previous : (w.gate (before ++ [a])).previous = some (.ofList a.instances.toList) := by
    rw [Gate.ofList_toList]
    exact previous_gate_eq_some.mpr ⟨before, a, rfl, rfl⟩
  have opened : (w.gate (before ++ [a])).windows.Opens a.instances.toList b.instances.toList window := by
    rw [windows_gate]
    exact opens
  have shut := (Gate.shutUntil_observe previous opened b.now).observeAll after
  rw [Gate.ofList_toList] at shut
  rw [split, gate_append]
  have cut : min (b.now + min window.millis maxTime) maxTime = min (b.now + window.millis) maxTime := by
    omega
  rw [cut]
  exact shut

/-- The end that a gate keeps is that of a window which was opened. -/
theorem expiresAt_gate_mem_ends (ends : (w.gate seen).expiresAt = some e) : e ∈ w.ends seen := by
  induction seen using List.reverseRecOn with
  | nil => cases ends
  | append_singleton before s ih =>
    rw [gate_append] at ends
    -- The last sighting has kept an end of those before it, or has opened the window itself.
    rcases Gate.expiresAt_observe ends with earlier | ⟨previous, window, last, opens, rfl⟩
    · exact w.ends_append before [s] (ih earlier)
    · obtain ⟨first, a, rfl, rfl⟩ := previous_gate_eq_some.mp last
      rw [windows_gate] at opens
      exact ⟨a, s, window, ⟨first, [], by simp⟩, opens, rfl⟩

theorem expiresAt_gate_eq_some : (w.gate seen).expiresAt = some e ↔ IsGreatest (w.ends seen) e := by
  constructor
  · intro ends
    refine ⟨expiresAt_gate_mem_ends ends, fun t opened => ?_⟩
    obtain ⟨last, found, later⟩ := shutUntil_of_ends opened
    cases Option.some.inj (ends.symm.trans found)
    exact later
  · intro greatest
    obtain ⟨last, found, later⟩ := shutUntil_of_ends greatest.1
    have earlier := greatest.2 (expiresAt_gate_mem_ends found)
    rw [found, Nat.le_antisymm earlier later]

theorem expiresAt_gate_eq_none : (w.gate seen).expiresAt = none ↔ Unchanging seen := by
  rw [← ends_eq_empty_iff (w := w), Set.eq_empty_iff_forall_notMem]
  constructor
  · intro none t opened
    obtain ⟨e, found, -⟩ := shutUntil_of_ends opened
    cases none.symm.trans found
  · intro none
    cases found : (w.gate seen).expiresAt with
    | none => rfl
    | some e => exact absurd (expiresAt_gate_mem_ends found) (none e)

theorem le_maxTime_of_gate (ends : (w.gate seen).expiresAt = some e) : e ≤ maxTime :=
  le_maxTime_of_ends (expiresAt_gate_mem_ends ends)

end Windows

/-! ## What a gate answers -/

theorem eq_ofMillis_iff {n : Nat} (fits : n ≤ maxTime) {r : Duration} :
    r = .ofMillis n ↔ r.nanos = n * 1000000 := by
  have nanos : (Duration.ofMillis n).nanos = n * 1000000 := by
    show min n maxTime * 1000000 = _
    rw [Nat.min_eq_left fits]
  rw [← nanos]
  cases r
  simp [Duration.ofMillis]

namespace Gate

variable {g : Gate} {now : Nat}

theorem status_eq_active {r : Duration} : g.status now = .active r ↔
    ∃ e, g.expiresAt = some e ∧ now ≤ e ∧ r = .ofMillis (e - now) := by
  cases ends : g.expiresAt with
  | none => simp [status, ends]
  | some e =>
    by_cases early : now ≤ e
    · simp [status, ends, early, eq_comm]
    · simp [status, ends, early]

theorem status_eq_ready : g.status now = .ready ↔ ∀ e, g.expiresAt = some e → e < now := by
  cases ends : g.expiresAt with
  | none => simp [status, ends]
  | some e => simp [status, ends]

/-- Sightings of the instances that were seen last leave a gate as it is. -/
theorem observeAll_observe_same {current : Std.ExtTreeSet String} {still : List Sighting}
    (same : ∀ x ∈ still, x.instances = current) :
    (g.observe current now).observeAll still = g.observe current now := by
  induction still with
  | nil => rfl
  | cons x rest ih =>
    show ((g.observe current now).observe x.instances x.now).observeAll rest = _
    rw [same x List.mem_cons_self, observe_observe]
    exact ih fun other mem => same other (List.mem_cons_of_mem x mem)

end Gate

/-- What a gate makes of the last of several sightings, said in terms of all of them. -/
structure Windows.Governs (w : Windows) (before : List Sighting) (s : Sighting) : Prop where
  /-- There is no end while the instances stay what they were at first. -/
  without_end : (w.gate (before ++ [s])).expiresAt = none ↔ Unchanging (before ++ [s])
  /-- Otherwise the end is the latest one of all windows that were opened. -/
  latest_end : ∀ e, (w.gate (before ++ [s])).expiresAt = some e ↔
    IsGreatest (w.ends (before ++ [s])) e
  /-- Up to the end, the end included, the gate tells how long it is until then. -/
  active : ∀ r, (w.gate (before ++ [s])).status s.now = .active r ↔
    ∃ e, (w.gate (before ++ [s])).expiresAt = some e ∧ s.now ≤ e ∧ r.nanos = (e - s.now) * 1000000
  ready : (w.gate (before ++ [s])).status s.now = .ready ↔
    ∀ e, (w.gate (before ++ [s])).expiresAt = some e → e < s.now
  /-- Nothing that is seen later moves the end back. -/
  onward : ∀ later e, (w.gate (before ++ [s])).expiresAt = some e →
    ∃ f, (w.gate (before ++ [s] ++ later)).expiresAt = some f ∧ e ≤ f
  /-- By a clock that has not gone back, no wait is longer than the longer window. -/
  bounded : (∀ x ∈ before, x.now ≤ s.now) → ∀ r, (w.gate (before ++ [s])).status s.now = .active r →
    r.nanos ≤ max (min w.add.millis maxTime) (min w.remove.millis maxTime) * 1000000
  /-- When the instances stay what they are, the wait is over once more than the time told has
  passed. -/
  ended : ∀ r, (w.gate (before ++ [s])).status s.now = .active r → ∀ (still : List Sighting) (t : Nat),
    (∀ x ∈ still, x.instances = s.instances) →
      ((w.gate (before ++ [s] ++ still ++ [⟨s.instances, t⟩])).status t = .ready ↔
        s.now * 1000000 + r.nanos < t * 1000000)

namespace Windows

variable {before : List Sighting} {s : Sighting} {r : Duration}

theorem gate_active_iff : (w.gate seen).status s.now = .active r ↔
    ∃ e, (w.gate seen).expiresAt = some e ∧ s.now ≤ e ∧ r.nanos = (e - s.now) * 1000000 := by
  rw [Gate.status_eq_active]
  refine exists_congr fun e => and_congr_right fun ends => and_congr_right fun _ => ?_
  exact eq_ofMillis_iff ((Nat.sub_le _ _).trans (le_maxTime_of_gate ends))

theorem remaining_le (forward : ∀ x ∈ before, x.now ≤ s.now)
    (waiting : (w.gate (before ++ [s])).status s.now = .active r) :
    r.nanos ≤ max (min w.add.millis maxTime) (min w.remove.millis maxTime) * 1000000 := by
  obtain ⟨e, ends, -, told⟩ := gate_active_iff.mp waiting
  obtain ⟨a, b, window, ⟨first, rest, split⟩, opens, rfl⟩ := expiresAt_gate_mem_ends ends
  have late : b.now ≤ s.now := by
    have mem : b ∈ before ++ [s] := by simp [split]
    rcases List.mem_append.mp mem with earlier | last
    · exact forward b earlier
    · rw [List.mem_singleton.mp last]
  have longest : min window.millis maxTime ≤
      max (min w.add.millis maxTime) (min w.remove.millis maxTime) := by
    cases opens with
    | added => exact Nat.le_max_left _ _
    | removed => exact Nat.le_max_right _ _
  rw [told]
  exact Nat.mul_le_mul_right _ (by omega)

theorem ready_at_iff (waiting : (w.gate (before ++ [s])).status s.now = .active r)
    {still : List Sighting} (same : ∀ x ∈ still, x.instances = s.instances) (t : Nat) :
    (w.gate (before ++ [s] ++ still ++ [⟨s.instances, t⟩])).status t = .ready ↔
      s.now * 1000000 + r.nanos < t * 1000000 := by
  obtain ⟨e, ends, early, told⟩ := gate_active_iff.mp waiting
  have unmoved : w.gate (before ++ [s] ++ still ++ [⟨s.instances, t⟩]) = w.gate (before ++ [s]) := by
    rw [List.append_assoc (before ++ [s]), gate_append, gate_append]
    show ((w.gate before).observe s.instances s.now).observeAll _ =
      (w.gate before).observe s.instances s.now
    refine Gate.observeAll_observe_same fun x mem => ?_
    rcases List.mem_append.mp mem with between | last
    · exact same x between
    · rw [List.mem_singleton.mp last]
  rw [unmoved, Gate.status_eq_ready, ends, told]
  simp only [Option.some.injEq, forall_eq']
  omega

/-- The end of a cooldown, and how long it is until then, are a closed form of all that was seen. -/
theorem answers_from_sightings (w : Windows) (before : List Sighting) (s : Sighting) :
    w.Governs before s where
  without_end := expiresAt_gate_eq_none
  latest_end _ := expiresAt_gate_eq_some
  active _ := gate_active_iff
  ready := Gate.status_eq_ready
  onward later e ends := by
    rw [gate_append]
    exact Gate.ShutUntil.observeAll ⟨e, ends, Nat.le_refl e⟩ later
  bounded forward _ waiting := remaining_le forward waiting
  ended _ waiting _ t same := ready_at_iff waiting same t

/-- One instance takes the place of another. Both windows are opened, the longer one counts, and not a
millisecond after its end the gate is still shut. -/
theorem answers_from_sightings_swap :
    let w : Windows := ⟨.minutes 1, .minutes 5⟩
    let first : Sighting := ⟨.ofList ["old"], 0⟩
    let swap : Sighting := ⟨.ofList ["new"], 5000⟩
    let gate := w.gate ([first] ++ [swap])
    w.ends ([first] ++ [swap]) ⊆ Set.Iic 305000 ∧ 305000 ∈ w.ends ([first] ++ [swap]) ∧
      gate.status 5000 = .active (.minutes 5) ∧
      (Duration.minutes 5).nanos ≤ max (min w.add.millis maxTime) (min w.remove.millis maxTime) * 1000000 ∧
      (w.gate ([first] ++ [swap] ++ [] ++ [⟨.ofList ["new"], 305000⟩])).status 305000 ≠ .ready ∧
      (w.gate ([first] ++ [swap] ++ [] ++ [⟨.ofList ["new"], 305001⟩])).status 305001 = .ready := by
  intro w first swap gate
  have governs := answers_from_sightings w [first] swap
  have waiting : gate.status 5000 = .active (.minutes 5) := by decide +kernel
  obtain ⟨opened, latest⟩ := (governs.latest_end 305000).mp (by decide +kernel)
  have ended := governs.ended _ waiting []
  refine ⟨latest, opened, waiting, governs.bounded (by simp [first]) _ waiting, ?_, ?_⟩
  · exact fun ready => absurd ((ended 305000 (by simp)).mp ready) (by decide)
  · exact (ended 305001 (by simp)).mpr (by decide)

end Windows

end Autoscaler.Cooldown
