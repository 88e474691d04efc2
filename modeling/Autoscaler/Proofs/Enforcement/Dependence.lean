import Autoscaler.Proofs.Enforcement.Sequence

/-!
# What bounds depend on

The bounds of a zone set follow from the others alone: from which of them there are, in whatever order,
and from what each of them holds and plans. The more a total allows or demands, the higher its bound.
The more the others hold or plan, the lower both bounds, with one exception: a plan of nothing counts as
none, so that the minimum may rise when it gives way to a plan of something (`bounds_beside`).
-/

namespace Autoscaler.Holdings

variable {h k : Holdings} {z o : ZoneSet} {total more perZoneMax perZoneMin c : Capacity}

/-! ## The same others -/

/-- Besides a zone set, the same others are listed, in any order, and each of them holds and plans the
same. -/
structure SameBeside (z : ZoneSet) (h k : Holdings) : Prop where
  others : (h.others z).Perm (k.others z)
  enforced : ∀ o ∈ h.others z, h.enforced.get o = k.enforced.get o
  planned : ∀ o ∈ h.others z, h.planned.get o = k.planned.get o

theorem SameBeside.symm (same : SameBeside z h k) : SameBeside z k h where
  others := same.others.symm
  enforced o other := (same.enforced o (same.others.mem_iff.mpr other)).symm
  planned o other := (same.planned o (same.others.mem_iff.mpr other)).symm

theorem ne_of_mem_others (other : o ∈ h.others z) : o ≠ z := by
  simpa using (List.mem_filter.mp other).2

theorem sameBeside_of_perm {zones : List ZoneSet} (perm : h.zoneSets.Perm zones) :
    SameBeside z h { h with zoneSets := zones } :=
  ⟨perm.filter _, fun _ _ => rfl, fun _ _ => rfl⟩

/-- Whether the zone set itself is listed makes no difference. -/
theorem sameBeside_listed (h : Holdings) (z : ZoneSet) :
    SameBeside z h { h with zoneSets := z :: h.zoneSets } := by
  refine ⟨.of_eq ?_, fun _ _ => rfl, fun _ _ => rfl⟩
  simp [Holdings.others]

theorem sameBeside_setEnforced (h : Holdings) (z : ZoneSet) (c : Capacity) :
    SameBeside z h { h with enforced := h.enforced.set z c } := by
  refine ⟨.refl _, fun o other => ?_, fun _ _ => rfl⟩
  rw [Allocation.get_set, if_neg (ne_of_mem_others other).symm]

theorem sameBeside_withPlan (h : Holdings) (z : ZoneSet) (c : Capacity) :
    SameBeside z h (h.withPlan z c) := by
  refine ⟨.refl _, fun _ _ => rfl, fun o other => ?_⟩
  rw [withPlan, Allocation.get_set, if_neg (ne_of_mem_others other).symm]

/-! ## Others that hold and plan more -/

/-- Besides a zone set, the same others are listed, in any order, and each of them holds and plans at
least as much in the second holdings as in the first. -/
structure RaisedBeside (z : ZoneSet) (h k : Holdings) : Prop where
  others : (h.others z).Perm (k.others z)
  enforced : ∀ o ∈ h.others z, h.enforced.get o ≤ k.enforced.get o
  planned : ∀ o ∈ h.others z, h.planned.get o ≤ k.planned.get o

/-- Besides a zone set, none that plans nothing in the first holdings plans something in the second. -/
def Undecided (z : ZoneSet) (h k : Holdings) : Prop :=
  ∀ o ∈ h.others z, h.planned.get o = 0 → k.planned.get o = 0

theorem SameBeside.raised (same : SameBeside z h k) : RaisedBeside z h k where
  others := same.others
  enforced o other d := (congrArg (·.get d) (same.enforced o other)).le
  planned o other d := (congrArg (·.get d) (same.planned o other)).le

theorem SameBeside.undecided (same : SameBeside z h k) : Undecided z h k :=
  fun o other none => (same.planned o other).symm.trans none

theorem raisedBeside_setEnforced (z : ZoneSet) (raised : h.enforced.get o ≤ c) :
    RaisedBeside z h { h with enforced := h.enforced.set o c } := by
  refine ⟨.refl _, fun p _ => ?_, fun _ _ _ => le_rfl⟩
  rw [Allocation.get_set]
  split
  · rename_i same
    exact same ▸ raised
  · exact fun _ => le_rfl

theorem raisedBeside_withPlan (z : ZoneSet) (raised : h.planned.get o ≤ c) :
    RaisedBeside z h (h.withPlan o c) := by
  refine ⟨.refl _, fun _ _ _ => le_rfl, fun p _ => ?_⟩
  rw [withPlan, Allocation.get_set]
  split
  · rename_i same
    exact same ▸ raised
  · exact fun _ => le_rfl

theorem undecided_withPlan (z : ZoneSet) (c : Capacity) (decided : h.planned.get o ≠ 0) :
    Undecided z h (h.withPlan o c) := by
  intro p _ none
  have different : o ≠ p := by
    rintro rfl
    exact decided none
  rwa [withPlan, Allocation.get_set, if_neg different]

theorem RaisedBeside.most_le (raised : RaisedBeside z h k) (other : o ∈ h.others z) (d : String) :
    h.most d o ≤ k.most d o := by
  have held := raised.enforced o other d
  have planned := raised.planned o other d
  unfold most
  omega

/-- A plan that is raised stays a plan, and one of nothing stays none. -/
theorem RaisedBeside.floor_le (raised : RaisedBeside z h k) (undecided : Undecided z h k)
    (other : o ∈ h.others z) (perZoneMin : Capacity) : h.floor perZoneMin o ≤ k.floor perZoneMin o := by
  intro d
  have held := raised.enforced o other d
  have planned := raised.planned o other d
  by_cases none : h.planned.get o = 0
  · rw [floor, floor, if_pos (Capacity.isZero_iff.mpr none),
      if_pos (Capacity.isZero_iff.mpr (undecided o other none)), Capacity.get_max, Capacity.get_max]
    omega
  · have some : k.planned.get o ≠ 0 := fun zero =>
      none (Capacity.eq_zero_of_le (raised.planned o other) zero)
    rw [floor, floor, if_neg (mt Capacity.isZero_iff.mp none), if_neg (mt Capacity.isZero_iff.mp some)]
    simp only [Capacity.get_max, Capacity.get_min]
    omega

/-! ## The bounds -/

theorem RaisedBeside.maximumFor_le (raised : RaisedBeside z h k) (le : total ≤ more) :
    k.maximumFor z total perZoneMax ≤ h.maximumFor z more perZoneMax := by
  intro d
  have allowed := le d
  have claimed : ((h.others z).map fun o => min (perZoneMax.get d) (h.most d o)).sum ≤
      ((k.others z).map fun o => min (perZoneMax.get d) (k.most d o)).sum := by
    rw [← (raised.others.map _).sum_eq]
    refine List.sum_le_sum fun o other => ?_
    have most := raised.most_le other d
    omega
  rw [get_maximumFor, get_maximumFor]
  omega

theorem RaisedBeside.minimumFor_le (raised : RaisedBeside z h k) (undecided : Undecided z h k)
    (le : total ≤ more) : k.minimumFor z total perZoneMin ≤ h.minimumFor z more perZoneMin := by
  intro d
  have demanded := le d
  have kept : ((h.others z).map fun o => (h.floor perZoneMin o).get d).sum ≤
      ((k.others z).map fun o => (k.floor perZoneMin o).get d).sum := by
    rw [← (raised.others.map _).sum_eq]
    exact List.sum_le_sum fun o other => raised.floor_le undecided other perZoneMin d
  rw [get_minimumFor, get_minimumFor]
  omega

theorem SameBeside.maximumFor_eq (same : SameBeside z h k) (total perZoneMax : Capacity) :
    k.maximumFor z total perZoneMax = h.maximumFor z total perZoneMax :=
  Capacity.eq_of_le_of_le (same.raised.maximumFor_le fun _ => le_rfl)
    (same.symm.raised.maximumFor_le fun _ => le_rfl)

theorem SameBeside.minimumFor_eq (same : SameBeside z h k) (total perZoneMin : Capacity) :
    k.minimumFor z total perZoneMin = h.minimumFor z total perZoneMin :=
  Capacity.eq_of_le_of_le (same.raised.minimumFor_le same.undecided fun _ => le_rfl)
    (same.symm.raised.minimumFor_le same.symm.undecided fun _ => le_rfl)

theorem maximumFor_within (h : Holdings) (z : ZoneSet) (total perZoneMax : Capacity) :
    h.maximumFor z total perZoneMax ≤ perZoneMax ∧ h.maximumFor z total perZoneMax ≤ total := by
  constructor
  · intro d
    rw [get_maximumFor]
    omega
  · intro d
    rw [get_maximumFor]
    omega

theorem le_minimumFor (h : Holdings) (z : ZoneSet) (total perZoneMin : Capacity) :
    perZoneMin ≤ h.minimumFor z total perZoneMin := by
  intro d
  rw [get_minimumFor]
  exact Nat.le_max_left _ _

/-- The bounds of a zone set are the same whenever the others are, and these are the same in any order,
whether or not the zone set is listed itself, and whatever it holds and plans. The maximum is within
both limits and the minimum reaches its own; a larger total never lowers them. When a zone set holds
more, neither bound rises; when it plans more, the maximum does not rise, nor does the minimum if
something was planned before. -/
theorem bounds_beside (h : Holdings) (z : ZoneSet)
    (totalMax perZoneMax totalMin perZoneMin : Capacity) :
    (∀ k, SameBeside z h k →
      k.maximumFor z totalMax perZoneMax = h.maximumFor z totalMax perZoneMax ∧
      k.minimumFor z totalMin perZoneMin = h.minimumFor z totalMin perZoneMin) ∧
    ((∀ zones, h.zoneSets.Perm zones → SameBeside z h { h with zoneSets := zones }) ∧
      SameBeside z h { h with zoneSets := z :: h.zoneSets } ∧
      ∀ c, SameBeside z h { h with enforced := h.enforced.set z c } ∧
        SameBeside z h { h with planned := h.planned.set z c }) ∧
    (h.maximumFor z totalMax perZoneMax ≤ perZoneMax ∧ h.maximumFor z totalMax perZoneMax ≤ totalMax ∧
      perZoneMin ≤ h.minimumFor z totalMin perZoneMin) ∧
    (∀ more, totalMax ≤ more → h.maximumFor z totalMax perZoneMax ≤ h.maximumFor z more perZoneMax) ∧
    (∀ more, totalMin ≤ more → h.minimumFor z totalMin perZoneMin ≤ h.minimumFor z more perZoneMin) ∧
    (∀ o c, h.enforced.get o ≤ c →
      let k := { h with enforced := h.enforced.set o c }
      k.maximumFor z totalMax perZoneMax ≤ h.maximumFor z totalMax perZoneMax ∧
      k.minimumFor z totalMin perZoneMin ≤ h.minimumFor z totalMin perZoneMin) ∧
    ∀ o c, h.planned.get o ≤ c →
      let k := { h with planned := h.planned.set o c }
      k.maximumFor z totalMax perZoneMax ≤ h.maximumFor z totalMax perZoneMax ∧
      (h.planned.get o ≠ 0 →
        k.minimumFor z totalMin perZoneMin ≤ h.minimumFor z totalMin perZoneMin) := by
  have unchanged : SameBeside z h h := sameBeside_of_perm (.refl _)
  have within := h.maximumFor_within z totalMax perZoneMax
  refine ⟨fun k same => ⟨same.maximumFor_eq _ _, same.minimumFor_eq _ _⟩,
    ⟨fun zones perm => sameBeside_of_perm perm, sameBeside_listed h z,
      fun c => ⟨sameBeside_setEnforced h z c, sameBeside_withPlan h z c⟩⟩,
    ⟨within.1, within.2, h.le_minimumFor z totalMin perZoneMin⟩,
    fun more larger => unchanged.raised.maximumFor_le larger,
    fun more larger => unchanged.raised.minimumFor_le unchanged.undecided larger, ?_, ?_⟩
  · intro o c raised
    have beside := raisedBeside_setEnforced z raised
    exact ⟨beside.maximumFor_le fun _ => le_rfl,
      beside.minimumFor_le (fun _ _ none => none) fun _ => le_rfl⟩
  · intro o c raised
    have beside := raisedBeside_withPlan z raised
    exact ⟨beside.maximumFor_le fun _ => le_rfl,
      fun decided => beside.minimumFor_le (undecided_withPlan z c decided) fun _ => le_rfl⟩

/-- The two in turn, the north listed again and holding more itself; then a south that holds more and
plans more than it did. -/
theorem bounds_beside_pair :
    let planned := .ofList [(south, amounts 200 1)]
    let h : Holdings := ⟨[north, south], .ofList [(south, amounts 300 2)], planned⟩
    let again : Holdings :=
      ⟨[north, south, north], .ofList [(north, amounts 900 9), (south, amounts 300 2)], planned⟩
    let k := { h with enforced := h.enforced.set south (amounts 500 2) }
    let l := { h with planned := h.planned.set south (amounts 800 1) }
    SameBeside north h again ∧ amounts 1000 8 ≤ amounts 1500 8 ∧
      h.enforced.get south ≤ amounts 500 2 ∧ h.planned.get south ≤ amounts 800 1 ∧
      h.planned.get south ≠ 0 ∧
      again.maximumFor north (amounts 1000 8) (amounts 800 6) = amounts 700 6 ∧
      again.minimumFor north (amounts 1000 8) (amounts 100 1) = amounts 800 7 ∧
      h.maximumFor north (amounts 1000 8) (amounts 800 6) ≤
        h.maximumFor north (amounts 1500 8) (amounts 800 6) ∧
      h.minimumFor north (amounts 1000 8) (amounts 100 1) ≤
        h.minimumFor north (amounts 1500 8) (amounts 100 1) ∧
      k.maximumFor north (amounts 1000 8) (amounts 800 6) ≤
        h.maximumFor north (amounts 1000 8) (amounts 800 6) ∧
      l.minimumFor north (amounts 1000 8) (amounts 100 1) ≤
        h.minimumFor north (amounts 1000 8) (amounts 100 1) := by
  intro planned h again k l
  have same : SameBeside north h again := by
    refine ⟨?_, ?_, ?_⟩ <;> decide +kernel
  have larger : amounts 1000 8 ≤ amounts 1500 8 := by decide +kernel
  have held : h.enforced.get south ≤ amounts 500 2 := by decide +kernel
  have more : h.planned.get south ≤ amounts 800 1 := by decide +kernel
  have decided : h.planned.get south ≠ 0 := by decide +kernel
  have most : h.maximumFor north (amounts 1000 8) (amounts 800 6) = amounts 700 6 :=
    Capacity.eq_of_le_of_le (by decide +kernel) (by decide +kernel)
  have least : h.minimumFor north (amounts 1000 8) (amounts 100 1) = amounts 800 7 :=
    Capacity.eq_of_le_of_le (by decide +kernel) (by decide +kernel)
  obtain ⟨alike, -, -, allowed, demanded, raised, raisedPlan⟩ :=
    bounds_beside h north (amounts 1000 8) (amounts 800 6) (amounts 1000 8) (amounts 100 1)
  exact ⟨same, larger, held, more, decided, (alike again same).1.trans most,
    (alike again same).2.trans least, allowed _ larger, demanded _ larger, (raised _ _ held).1,
    (raisedPlan _ _ more).2 decided⟩

/-- A plan of nothing is taken for none. Once something is planned, even though it is less than what is
held, less is reserved and the minimum of the other rises. -/
example :
    let h : Holdings := ⟨[north, south], .ofList [(south, amounts 300 0)], .empty⟩
    h.minimumFor north (amounts 1000 0) (amounts 100 0) = amounts 700 0 ∧
      (h.withPlan south (amounts 200 0)).minimumFor north (amounts 1000 0) (amounts 100 0) =
        amounts 800 0 := by
  decide +kernel

end Autoscaler.Holdings
