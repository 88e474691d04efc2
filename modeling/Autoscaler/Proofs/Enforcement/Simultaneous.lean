import Autoscaler.Proofs.Enforcement.Sequence

/-!
# Maxima taken at once

The maximum of a zone set leaves the others what they may still claim, and not what they may have at
most. Taken in turn, the maxima stay under the ceiling together, since each is computed from what those
before it have taken. Computed from the same holdings, they give what nobody claims to every zone set
that has room for it, and are under the ceiling together exactly when nothing is left to give, or there
is room for no more than is left, or a single zone set has room (`maxima_le_iff`).
-/

namespace Autoscaler

/-- Where something is left, those who each take of it what they have room for take no more than there
is together exactly when it fills all of them, or when no two of them have room. -/
theorem sum_min_le_iff {ι : Type} [DecidableEq ι] (s : Finset ι) (room : ι → Nat) {left : Nat}
    (some : 0 < left) : ∑ i ∈ s, min (room i) left ≤ left ↔
      ∑ i ∈ s, room i ≤ left ∨ ∀ i ∈ s, ∀ j ∈ s, 0 < room i → 0 < room j → i = j := by
  constructor
  · intro fits
    by_contra! crowded
    obtain ⟨many, i, mem, j, memOther, roomy, roomyOther, different⟩ := crowded
    -- One of them has room for all that is left, and beside it another takes something.
    obtain ⟨k, memLarge, large⟩ : ∃ k ∈ s, left < room k := by
      by_contra! small
      have same : ∑ i ∈ s, min (room i) left = ∑ i ∈ s, room i :=
        Finset.sum_congr rfl fun k mem => Nat.min_eq_left (small k mem)
      omega
    obtain ⟨l, memBeside, roomyBeside⟩ : ∃ l ∈ s.erase k, 0 < room l := by
      by_cases same : i = k
      · exact ⟨j, Finset.mem_erase.mpr ⟨fun equal => different (same.trans equal.symm), memOther⟩,
          roomyOther⟩
      · exact ⟨i, Finset.mem_erase.mpr ⟨same, mem⟩, roomy⟩
    have split := Finset.add_sum_erase s (fun i => min (room i) left) memLarge
    have beside : min (room l) left ≤ ∑ i ∈ s.erase k, min (room i) left :=
      Finset.single_le_sum (f := fun i => min (room i) left) (fun _ _ => Nat.zero_le _) memBeside
    omega
  · rintro (few | single)
    · exact (Finset.sum_le_sum fun i _ => Nat.min_le_left _ _).trans few
    · by_cases any : ∃ i ∈ s, 0 < room i
      · obtain ⟨i, mem, roomy⟩ := any
        have alone : ∀ j ∈ s, j ≠ i → min (room j) left = 0 := by
          intro j memOther different
          by_contra takes
          exact different (single j memOther i mem (by omega) roomy)
        rw [Finset.sum_eq_single_of_mem i mem alone]
        exact Nat.min_le_right _ _
      · push Not at any
        have none : ∑ i ∈ s, min (room i) left = 0 :=
          Finset.sum_eq_zero fun i mem => by
            have := any i mem
            omega
        omega

namespace Holdings

/-- The exact sum of the maxima of all zone sets, each computed from the same holdings. -/
def maxima (h : Holdings) (totalMax perZoneMax : Capacity) (d : String) : Nat :=
  (h.zoneSets.map fun z => (h.maximumFor z totalMax perZoneMax).get d).sum

/-- The exact sum of the most that each zone set may still claim. -/
def claims (h : Holdings) (perZoneMax : Capacity) (d : String) : Nat :=
  (h.zoneSets.map fun z => (h.ceiling perZoneMax z).get d).sum

variable {h : Holdings} {totalMax perZoneMax : Capacity} {d : String}

section
variable (distinct : h.zoneSets.Nodup)
include distinct

theorem claims_eq_sum : h.claims perZoneMax d =
    ∑ z ∈ h.zoneSets.toFinset, min (perZoneMax.get d) (h.most d z) := by
  rw [claims, ← List.sum_toFinset _ distinct]
  exact Finset.sum_congr rfl fun z _ => get_ceiling perZoneMax z

/-- What is left for a zone set when the others have what they claim. -/
theorem get_maximumFor_eq (totalMax perZoneMax : Capacity) (d : String) {z : ZoneSet}
    (mem : z ∈ h.zoneSets) : (h.maximumFor z totalMax perZoneMax).get d = min (perZoneMax.get d)
      (totalMax.get d - (h.claims perZoneMax d - min (perZoneMax.get d) (h.most d z))) := by
  rw [get_maximumFor, claims_eq_sum distinct,
    sum_eq_add_others distinct mem fun o => min (perZoneMax.get d) (h.most d o), Nat.add_sub_cancel_left]

/-- When nothing is left, each gives up what is claimed in excess. -/
theorem maxima_le_of_claimed (claimed : totalMax.get d ≤ h.claims perZoneMax d) :
    h.maxima totalMax perZoneMax d ≤ totalMax.get d := by
  rw [maxima, ← List.sum_toFinset _ distinct]
  by_cases any : ∃ z ∈ h.zoneSets, 0 < (h.maximumFor z totalMax perZoneMax).get d
  · obtain ⟨z, mem, some⟩ := any
    have own := get_maximumFor_eq distinct totalMax perZoneMax d mem
    have whole := sum_eq_add_others distinct mem fun o => min (perZoneMax.get d) (h.most d o)
    have others : ((h.others z).map fun o => (h.maximumFor o totalMax perZoneMax).get d).sum ≤
        ((h.others z).map fun o => min (perZoneMax.get d) (h.most d o)).sum := by
      refine List.sum_le_sum fun o other => ?_
      rw [get_maximumFor_eq distinct totalMax perZoneMax d (List.mem_filter.mp other).1]
      omega
    rw [sum_eq_add_others distinct mem fun o => (h.maximumFor o totalMax perZoneMax).get d]
    rw [← claims_eq_sum distinct] at whole
    omega
  · push Not at any
    have none : ∑ z ∈ h.zoneSets.toFinset, (h.maximumFor z totalMax perZoneMax).get d = 0 :=
      Finset.sum_eq_zero fun z mem => Nat.le_zero.mp (any z (List.mem_toFinset.mp mem))
    omega

/-- When something is left, each takes what it claims and, of what is left, what it has room for. -/
theorem maxima_eq_of_left (left : h.claims perZoneMax d < totalMax.get d) :
    h.maxima totalMax perZoneMax d = h.claims perZoneMax d +
      ∑ z ∈ h.zoneSets.toFinset,
        min (perZoneMax.get d - h.most d z) (totalMax.get d - h.claims perZoneMax d) := by
  conv_rhs => rw [claims_eq_sum distinct, ← Finset.sum_add_distrib, ← claims_eq_sum distinct]
  rw [maxima, ← List.sum_toFinset _ distinct]
  refine Finset.sum_congr rfl fun z mem => ?_
  have listed := List.mem_toFinset.mp mem
  have whole := sum_eq_add_others distinct listed fun o => min (perZoneMax.get d) (h.most d o)
  rw [← claims_eq_sum distinct] at whole
  rw [get_maximumFor_eq distinct totalMax perZoneMax d listed]
  omega

theorem claims_add_room (perZoneMax : Capacity) (d : String) : h.claims perZoneMax d +
    ∑ z ∈ h.zoneSets.toFinset, (perZoneMax.get d - h.most d z) =
      h.zoneSets.length * perZoneMax.get d := by
  have each : ∀ z ∈ h.zoneSets.toFinset,
      min (perZoneMax.get d) (h.most d z) + (perZoneMax.get d - h.most d z) = perZoneMax.get d := by
    intro z _
    omega
  rw [claims_eq_sum distinct, ← Finset.sum_add_distrib, Finset.sum_const_nat each,
    List.toFinset_card_of_nodup distinct]

/-- Maxima computed from the same holdings are under the ceiling together exactly when the claims reach
the ceiling, or there is room for the maximum of every zone set, or no two zone sets claim less than
they may have. -/
theorem maxima_le_iff (totalMax perZoneMax : Capacity) (d : String) :
    h.maxima totalMax perZoneMax d ≤ totalMax.get d ↔
      totalMax.get d ≤ h.claims perZoneMax d ∨
      h.zoneSets.length * perZoneMax.get d ≤ totalMax.get d ∨
      ∀ z ∈ h.zoneSets, ∀ o ∈ h.zoneSets,
        h.most d z < perZoneMax.get d → h.most d o < perZoneMax.get d → z = o := by
  by_cases claimed : totalMax.get d ≤ h.claims perZoneMax d
  · simp [claimed, maxima_le_of_claimed distinct claimed]
  · have left : h.claims perZoneMax d < totalMax.get d := by omega
    have room := claims_add_room distinct perZoneMax d
    have shared := sum_min_le_iff h.zoneSets.toFinset (fun z => perZoneMax.get d - h.most d z)
      (Nat.sub_pos_of_lt left)
    simp only [List.mem_toFinset, Nat.sub_pos_iff_lt] at shared
    have fits : h.maxima totalMax perZoneMax d ≤ totalMax.get d ↔
        ∑ z ∈ h.zoneSets.toFinset,
          min (perZoneMax.get d - h.most d z) (totalMax.get d - h.claims perZoneMax d) ≤
            totalMax.get d - h.claims perZoneMax d := by
      rw [maxima_eq_of_left distinct left]
      omega
    have filled : ∑ z ∈ h.zoneSets.toFinset, (perZoneMax.get d - h.most d z) ≤
          totalMax.get d - h.claims perZoneMax d ↔
        h.zoneSets.length * perZoneMax.get d ≤ totalMax.get d := by
      omega
    rw [fits, shared, filled, or_iff_right claimed]

end

/-- The two may have 700 each and 1000 together. When they hold 400 and 700, nothing is left and each
gives up the 100 in excess. When they hold 200 and 700, the second has no room, and the first takes what
is left. When they hold 200 and 300, both take what is left, 500 for each. -/
theorem maxima_le_iff_pair :
    let holding (first second : Nat) : Holdings :=
      unplanned [north, south] (.ofList [(north, amounts first 0), (south, amounts second 0)])
    [north, south].Nodup ∧
      (holding 400 700).maxima (amounts 1000 0) (amounts 700 0) "memory" ≤ 1000 ∧
      (holding 200 700).maxima (amounts 1000 0) (amounts 700 0) "memory" ≤ 1000 ∧
      ¬ (holding 200 300).maxima (amounts 1000 0) (amounts 700 0) "memory" ≤ 1000 := by
  intro holding
  have distinct : [north, south].Nodup := by decide
  have limit : (amounts 1000 0).get "memory" = 1000 := by decide +kernel
  have iff := fun first second =>
    maxima_le_iff (h := holding first second) distinct (amounts 1000 0) (amounts 700 0) "memory"
  simp only [limit] at iff
  refine ⟨distinct, (iff 400 700).mpr (by decide +kernel), (iff 200 700).mpr (by decide +kernel), ?_⟩
  rw [iff 200 300]
  decide +kernel

/-- Two zone sets that hold nothing are each given all that they may have together. -/
theorem maxima_exceed :
    let h := unplanned [north, south] .empty
    h.zoneSets.Nodup ∧
      (amounts 100 0).get "memory" < h.maxima (amounts 100 0) (amounts 100 0) "memory" := by
  decide +kernel

end Holdings

end Autoscaler
