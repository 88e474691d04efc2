import Autoscaler.Proofs.Enforcement.Reservation

/-!
# Decisions in any order

Zone sets may also decide without a cycle: in any order, again and again, each taking what its bounds
admit when it decides. Whatever each of them held, plans that keep to the maxima never pass the
ceiling together (`exactTotal_planned_le`), and plans that keep to the minima reach the floor as soon
as every zone set has one (`le_total_planned`).
-/

namespace Autoscaler.Holdings

/-- What is known before any zone set has planned. -/
def unplanned (zones : List ZoneSet) (enforced : Allocation) : Holdings := ⟨zones, enforced, .empty⟩

/-- What is known once capacities have been taken, one after the other. -/
def after (h : Holdings) (taken : List (ZoneSet × Capacity)) : Holdings :=
  taken.foldl (fun h e => h.withPlan e.1 e.2) h

/-- Capacities are taken one after the other, each by a zone set of the list and as allowed by what is
known when it is taken. -/
def Takes (allowed : Holdings → ZoneSet → Capacity → Prop) :
    Holdings → List (ZoneSet × Capacity) → Prop
  | _, [] => True
  | h, (z, c) :: rest => z ∈ h.zoneSets ∧ allowed h z c ∧ Takes allowed (h.withPlan z c) rest

instance Takes.decidable (allowed : Holdings → ZoneSet → Capacity → Prop)
    [∀ h z c, Decidable (allowed h z c)] :
    ∀ h taken, Decidable (Takes allowed h taken)
  | _, [] => inferInstanceAs (Decidable True)
  | h, (z, c) :: rest =>
    have := Takes.decidable allowed (h.withPlan z c) rest
    inferInstanceAs (Decidable (z ∈ h.zoneSets ∧ allowed h z c ∧ Takes allowed (h.withPlan z c) rest))

/-- What a zone set takes stays within its maximum. -/
def WithinMaximum (totalMax perZoneMax : Capacity) (h : Holdings) (z : ZoneSet) (c : Capacity) : Prop :=
  c ≤ h.maximumFor z totalMax perZoneMax

instance (totalMax perZoneMax : Capacity) (h : Holdings) (z : ZoneSet) (c : Capacity) :
    Decidable (WithinMaximum totalMax perZoneMax h z c) :=
  inferInstanceAs (Decidable (c ≤ h.maximumFor z totalMax perZoneMax))

/-- What a zone set takes reaches its minimum. -/
def ReachesMinimum (totalMin perZoneMin : Capacity) (h : Holdings) (z : ZoneSet) (c : Capacity) : Prop :=
  h.minimumFor z totalMin perZoneMin ≤ c

instance (totalMin perZoneMin : Capacity) (h : Holdings) (z : ZoneSet) (c : Capacity) :
    Decidable (ReachesMinimum totalMin perZoneMin h z c) :=
  inferInstanceAs (Decidable (h.minimumFor z totalMin perZoneMin ≤ c))

variable {allowed : Holdings → ZoneSet → Capacity → Prop} {h : Holdings}

theorem after_append (h : Holdings) (first second : List (ZoneSet × Capacity)) :
    h.after (first ++ second) = (h.after first).after second :=
  List.foldl_append

theorem takes_append {first second : List (ZoneSet × Capacity)} :
    Takes allowed h (first ++ second) ↔ Takes allowed h first ∧ Takes allowed (h.after first) second := by
  induction first generalizing h with
  | nil => simp [Takes, after]
  | cons entry rest ih =>
    rw [List.cons_append, Takes, ih, Takes, and_assoc, and_assoc]
    rfl

/-- What holds of the holdings, and is kept by each zone set that takes what is allowed, holds after
all of them. -/
theorem Takes.induction {P : Holdings → Prop}
    (step : ∀ h z c, P h → z ∈ h.zoneSets → allowed h z c → P (h.withPlan z c))
    {taken : List (ZoneSet × Capacity)} (takes : Takes allowed h taken) (start : P h) :
    P (h.after taken) := by
  induction taken generalizing h with
  | nil => exact start
  | cons entry rest ih =>
    obtain ⟨mem, permitted, later⟩ := takes
    exact ih later (step h _ _ start mem permitted)

theorem zoneSets_after (h : Holdings) (taken : List (ZoneSet × Capacity)) :
    (h.after taken).zoneSets = h.zoneSets := by
  induction taken generalizing h with
  | nil => rfl
  | cons entry rest ih => exact ih _

theorem isSome_planned_after (taken : List (ZoneSet × Capacity)) (z : ZoneSet) :
    ((h.after taken).planned.get? z).isSome ↔
      (h.planned.get? z).isSome ∨ z ∈ taken.map Prod.fst := by
  induction taken generalizing h with
  | nil => simp [after]
  | cons entry rest ih =>
    obtain ⟨o, c⟩ := entry
    show (((h.withPlan o c).after rest).planned.get? z).isSome ↔ _
    rw [ih, withPlan, Allocation.get?_set]
    by_cases same : o = z
    · simp [same]
    · simp [same, Ne.symm same]

theorem get?_planned_withPlan {z o : ZoneSet} {c plan : Capacity}
    (made : (h.withPlan z c).planned.get? o = some plan) :
    o = z ∧ plan = c ∨ h.planned.get? o = some plan := by
  rw [withPlan, Allocation.get?_set] at made
  by_cases same : z = o
  · rw [if_pos same] at made
    exact .inl ⟨same.symm, (Option.some.inj made).symm⟩
  · rw [if_neg same] at made
    exact .inr made

theorem sumOver_planned_withPlan {z : ZoneSet} (mem : z ∈ h.zoneSets) (c : Capacity) (d : String) :
    (h.withPlan z c).planned.sumOver h.zoneSets d =
      c.get d + ∑ o ∈ h.zoneSets.toFinset.erase z, (h.planned.get o).get d := by
  have own : (h.withPlan z c).planned.get z = c := by simp [withPlan]
  have kept : ∑ o ∈ h.zoneSets.toFinset.erase z, ((h.withPlan z c).planned.get o).get d =
      ∑ o ∈ h.zoneSets.toFinset.erase z, (h.planned.get o).get d := by
    refine Finset.sum_congr rfl fun o other => ?_
    have different : z ≠ o := (Finset.ne_of_mem_erase other).symm
    rw [withPlan, Allocation.get_set, if_neg different]
  rw [Allocation.sumOver, ← Finset.add_sum_erase _ _ (List.mem_toFinset.mpr mem), own, kept]

/-- Only zone sets of the list have plans. -/
def Listed (h : Holdings) : Prop := ∀ z plan, h.planned.get? z = some plan → z ∈ h.zoneSets

theorem Takes.listed {zones : List ZoneSet} {enforced : Allocation}
    {taken : List (ZoneSet × Capacity)} (takes : Takes allowed (unplanned zones enforced) taken) :
    ((unplanned zones enforced).after taken).Listed := by
  refine takes.induction (P := Listed) ?_ ?_
  · intro h z c listed mem _ o plan made
    rcases get?_planned_withPlan made with ⟨rfl, -⟩ | before
    · exact mem
    · exact listed o plan before
  · intro z plan made
    cases (Allocation.get?_empty z).symm.trans made

/-! ## Under the ceiling -/

/-- No zone set plans more than the most of one zone set, nor all of them more than the total. -/
structure PlansUnder (totalMax perZoneMax : Capacity) (h : Holdings) : Prop where
  each : ∀ z plan, h.planned.get? z = some plan → plan ≤ perZoneMax
  total : ∀ d, h.planned.sumOver h.zoneSets d ≤ totalMax.get d

theorem plansUnder_unplanned (zones : List ZoneSet) (enforced : Allocation)
    (totalMax perZoneMax : Capacity) : PlansUnder totalMax perZoneMax (unplanned zones enforced) := by
  have none : ∀ z, (unplanned zones enforced).planned.get? z = none := Allocation.get?_empty
  constructor
  · intro z plan made
    cases (none z).symm.trans made
  · intro d
    simp [Allocation.sumOver, Allocation.get_eq, none]

/-- A zone set that is listed more than once is reserved for more than once. -/
theorem sum_erase_le_sum_others (h : Holdings) (z : ZoneSet) (f : ZoneSet → Nat) :
    ∑ o ∈ h.zoneSets.toFinset.erase z, f o ≤ ((h.others z).map f).sum := by
  have same : h.zoneSets.toFinset.erase z = (h.others z).dedup.toFinset := by
    ext o
    simp [others, and_comm]
  rw [same, List.sum_toFinset f (List.nodup_dedup _)]
  exact ((List.dedup_sublist _).map f).sum_le_sum fun _ _ => Nat.zero_le _

theorem PlansUnder.get_le {totalMax perZoneMax : Capacity} (under : PlansUnder totalMax perZoneMax h)
    (z : ZoneSet) (d : String) : (h.planned.get z).get d ≤ perZoneMax.get d := by
  rw [Allocation.get_eq]
  cases made : h.planned.get? z with
  | none => simp
  | some plan => exact under.each z plan made d

/-- A zone set that takes no more than its maximum keeps all plans under the ceiling. Where nothing
is left to take, it gives up what it had planned. -/
theorem PlansUnder.withPlan {totalMax perZoneMax : Capacity} {z : ZoneSet} {c : Capacity}
    (under : PlansUnder totalMax perZoneMax h) (mem : z ∈ h.zoneSets)
    (within : c ≤ h.maximumFor z totalMax perZoneMax) :
    PlansUnder totalMax perZoneMax (h.withPlan z c) := by
  have bounded := fun d => (within d).trans_eq (get_maximumFor totalMax perZoneMax)
  constructor
  · intro o plan made
    rcases get?_planned_withPlan made with ⟨-, rfl⟩ | before
    · exact fun d => (bounded d).trans (Nat.min_le_left _ _)
    · exact under.each o plan before
  · intro d
    have reserved : ∑ o ∈ h.zoneSets.toFinset.erase z, (h.planned.get o).get d ≤
        ((h.others z).map fun o => min (perZoneMax.get d) (h.most d o)).sum := by
      refine (Finset.sum_le_sum fun o _ => ?_).trans (sum_erase_le_sum_others h z _)
      exact Nat.le_min.mpr ⟨under.get_le o d, Nat.le_max_right _ _⟩
    have before : ∑ o ∈ h.zoneSets.toFinset.erase z, (h.planned.get o).get d ≤ totalMax.get d :=
      (Finset.sum_le_sum_of_subset (Finset.erase_subset _ _)).trans (under.total d)
    have taken := bounded d
    show (h.withPlan z c).planned.sumOver h.zoneSets d ≤ totalMax.get d
    rw [sumOver_planned_withPlan mem]
    omega

/-- However zone sets take turns in taking no more than their maxima, they never plan more than the
total together, nor any of them more than the limit of one zone set. -/
theorem exactTotal_planned_le {zones : List ZoneSet} {enforced : Allocation}
    {totalMax perZoneMax : Capacity} {taken : List (ZoneSet × Capacity)}
    (takes : Takes (WithinMaximum totalMax perZoneMax) (unplanned zones enforced) taken)
    {sofar : List (ZoneSet × Capacity)} (inTurn : sofar <+: taken) :
    (∀ d, ((unplanned zones enforced).after sofar).planned.exactTotal d ≤ totalMax.get d) ∧
    ∀ z plan, ((unplanned zones enforced).after sofar).planned.get? z = some plan →
      plan ≤ perZoneMax := by
  obtain ⟨later, rfl⟩ := inTurn
  have takes := (takes_append.mp takes).1
  have under : PlansUnder totalMax perZoneMax ((unplanned zones enforced).after sofar) :=
    takes.induction (fun _ _ _ under mem within => under.withPlan mem within)
      (plansUnder_unplanned zones enforced totalMax perZoneMax)
  refine ⟨fun d => ?_, under.each⟩
  rw [Allocation.exactTotal_eq_sumOver takes.listed]
  exact under.total d

/-- Memory and processors of a zone set. -/
def amounts (memory cpu : Nat) : Capacity := .ofPairs [("memory", memory), ("cpu", cpu)]

/-- A zone set. -/
def north : ZoneSet := .ofPieces ["north"] (by decide) (by decide)

/-- Another zone set. -/
def south : ZoneSet := .ofPieces ["south"] (by decide) (by decide)

/-- The two hold more memory than they may have together. None is left to take, while processors are
shared out, and shared out anew. -/
theorem exactTotal_planned_le_crowded :
    let start := unplanned [north, south] (.ofList [(north, amounts 900 0), (south, amounts 800 0)])
    let taken := [(north, amounts 0 6), (south, amounts 0 2), (north, amounts 0 3), (south, amounts 0 5)]
    Takes (WithinMaximum (amounts 600 8) (amounts 700 6)) start taken ∧ taken <+: taken ∧
      (∀ d, (start.after taken).planned.exactTotal d ≤ (amounts 600 8).get d) ∧
      (start.after taken).planned.total = amounts 0 8 := by
  intro start taken
  have takes : Takes (WithinMaximum (amounts 600 8) (amounts 700 6)) start taken := by
    decide +kernel
  exact ⟨takes, List.prefix_refl _, (exactTotal_planned_le takes (List.prefix_refl _)).1,
    by decide +kernel⟩

/-! ## Over the floor -/

/-- No zone set plans less than the least of one zone set. -/
def PlansOver (perZoneMin : Capacity) (h : Holdings) : Prop :=
  ∀ z plan, h.planned.get? z = some plan → perZoneMin ≤ plan

theorem PlansOver.withPlan {totalMin perZoneMin : Capacity} {z : ZoneSet} {c : Capacity}
    (above : PlansOver perZoneMin h) (reaches : h.minimumFor z totalMin perZoneMin ≤ c) :
    PlansOver perZoneMin (h.withPlan z c) := by
  intro o plan made
  rcases get?_planned_withPlan made with ⟨-, rfl⟩ | before
  · intro d
    refine le_trans ?_ (reaches d)
    rw [get_minimumFor]
    exact Nat.le_max_left _ _
  · exact above o plan before

/-- A zone set with a plan is reserved for with no more than it plans. -/
theorem PlansOver.floor_le {perZoneMin : Capacity} (above : PlansOver perZoneMin h)
    (positive : perZoneMin ≠ 0) {o : ZoneSet} (decided : (h.planned.get? o).isSome) (d : String) :
    (h.floor perZoneMin o).get d ≤ (h.planned.get o).get d := by
  obtain ⟨plan, made⟩ := Option.isSome_iff_exists.mp decided
  have least := above o plan made
  have something : plan ≠ 0 := by
    rintro rfl
    exact positive (Capacity.ext fun d => Nat.le_zero.mp (by simpa using least d))
  have floor : (h.floor perZoneMin o).get d = max (perZoneMin.get d) (h.least d o) := by
    refine get_floor perZoneMin fun other same => ?_
    cases Option.some.inj (made.symm.trans same)
    exact something
  rw [floor, Allocation.get_eq, made, Option.getD_some]
  simp only [Holdings.least, made]
  exact Nat.max_le.mpr ⟨least d, Nat.min_le_right _ _⟩

/-- Once all others have a plan, a zone set that reaches its minimum makes up what is missing. -/
theorem PlansOver.le_sumOver {totalMin perZoneMin : Capacity} {z : ZoneSet} {c : Capacity}
    (above : PlansOver perZoneMin h) (positive : perZoneMin ≠ 0) (distinct : h.zoneSets.Nodup)
    (mem : z ∈ h.zoneSets) (decided : ∀ o ∈ h.zoneSets, o ≠ z → (h.planned.get? o).isSome)
    (reaches : h.minimumFor z totalMin perZoneMin ≤ c) (d : String) :
    totalMin.get d ≤ (h.withPlan z c).planned.sumOver h.zoneSets d := by
  have reserved : ((h.others z).map fun o => (h.floor perZoneMin o).get d).sum ≤
      ∑ o ∈ h.zoneSets.toFinset.erase z, (h.planned.get o).get d := by
    rw [others, sum_filter_ne h.zoneSets distinct z]
    refine Finset.sum_le_sum fun o other => ?_
    obtain ⟨different, listed⟩ := Finset.mem_erase.mp other
    exact above.floor_le positive (decided o (List.mem_toFinset.mp listed) different) d
  have taken := reaches d
  rw [get_minimumFor] at taken
  rw [sumOver_planned_withPlan mem]
  omega

/-- However zone sets take turns in taking no less than their minima, none of them plans less than
the least of one zone set, and from the turn on after which each of them has had one, they plan no
less than the total together. Without zone sets there are no turns. -/
theorem le_total_planned {zones : List ZoneSet} {enforced : Allocation}
    {totalMin perZoneMin : Capacity} {taken : List (ZoneSet × Capacity)} (distinct : zones.Nodup)
    (positive : perZoneMin ≠ 0)
    (takes : Takes (ReachesMinimum totalMin perZoneMin) (unplanned zones enforced) taken)
    {before : List (ZoneSet × Capacity)} {z : ZoneSet} {c : Capacity}
    (inTurn : before ++ [(z, c)] <+: taken) :
    (∀ o plan, ((unplanned zones enforced).after (before ++ [(z, c)])).planned.get? o = some plan →
      perZoneMin ≤ plan) ∧
    ((∀ o ∈ zones, o ∈ (before ++ [(z, c)]).map Prod.fst) →
      totalMin ≤ ((unplanned zones enforced).after (before ++ [(z, c)])).planned.total) := by
  obtain ⟨later, rfl⟩ := inTurn
  have takes := (takes_append.mp takes).1
  obtain ⟨earlier, mem, reaches, -⟩ := takes_append.mp takes
  have above : PlansOver perZoneMin ((unplanned zones enforced).after before) := by
    refine earlier.induction (fun _ _ _ above _ reaches => above.withPlan reaches) ?_
    intro o plan made
    cases (Allocation.get?_empty o).symm.trans made
  have last : (unplanned zones enforced).after (before ++ [(z, c)]) =
      ((unplanned zones enforced).after before).withPlan z c :=
    after_append _ before [(z, c)]
  have same : ((unplanned zones enforced).after before).zoneSets = zones := zoneSets_after _ before
  refine ⟨last ▸ above.withPlan reaches, fun decided d => ?_⟩
  have others : ∀ o ∈ ((unplanned zones enforced).after before).zoneSets, o ≠ z →
      (((unplanned zones enforced).after before).planned.get? o).isSome := by
    intro o listed different
    rw [same] at listed
    have turn := decided o listed
    rw [List.map_append, List.mem_append] at turn
    refine (isSome_planned_after before o).mpr (.inr (turn.resolve_right ?_))
    simpa using different
  have reached := above.le_sumOver positive (by rwa [same]) mem others reaches d
  rw [same] at reached
  have total := Allocation.exactTotal_eq_sumOver takes.listed d
  rw [zoneSets_after, last] at total
  rw [Allocation.get_total, last, total]
  exact Nat.le_min.mpr ⟨reached, totalMin.get_le d⟩

/-- The first zone set plans little because of what the second holds, and grows again before the
second has planned; the second may then keep less than it held. -/
theorem le_total_planned_regained :
    let start := unplanned [north, south] (.ofList [(north, amounts 300 0), (south, amounts 900 0)])
    let before := [(north, amounts 100 0), (north, amounts 500 0)]
    let taken := before ++ [(south, amounts 700 0)]
    [north, south].Nodup ∧ amounts 100 0 ≠ 0 ∧
      Takes (ReachesMinimum (amounts 1000 0) (amounts 100 0)) start taken ∧
      before ++ [(south, amounts 700 0)] <+: taken ∧ (∀ o ∈ [north, south], o ∈ taken.map Prod.fst) ∧
      amounts 1000 0 ≤ (start.after taken).planned.total ∧
      (start.after taken).planned.total = amounts 1200 0 := by
  intro start before taken
  have distinct : [north, south].Nodup := by decide
  have positive : amounts 100 0 ≠ 0 := by decide
  have takes : Takes (ReachesMinimum (amounts 1000 0) (amounts 100 0)) start taken := by
    decide +kernel
  have decided : ∀ o ∈ [north, south], o ∈ taken.map Prod.fst := by decide
  exact ⟨distinct, positive, takes, List.prefix_refl _, decided,
    (le_total_planned distinct positive takes (List.prefix_refl _)).2 decided, by decide +kernel⟩

end Autoscaler.Holdings
