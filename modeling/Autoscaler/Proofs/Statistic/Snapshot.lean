import Autoscaler.Enforcement.Evaluation
import Autoscaler.Proofs.Traversal
import Mathlib.Data.String.Basic

/-!
# Snapshots and lists of readings

A list may have several readings of a statistic, in any order. The snapshot of it keeps the last one
of each, and its own list has exactly these, in ascending order of the texts. As long as different
statistics have different texts there is only one such list, so that it does not depend on the order in
which a snapshot holds its readings (`keeps_last`).
-/

namespace Autoscaler.Snapshot

variable {samples : List (StatisticId × Reading)} {id : StatisticId} {r : Reading} {s : Snapshot}

/-- A reading is the last one of its statistic in a list. -/
def IsLast (samples : List (StatisticId × Reading)) (id : StatisticId) (r : Reading) : Prop :=
  ∃ before after, samples = before ++ (id, r) :: after ∧ ∀ e ∈ after, e.1 ≠ id

/-- Different statistics of a list have different texts. -/
def TextsApart (samples : List (StatisticId × Reading)) : Prop :=
  ∀ e ∈ samples, ∀ o ∈ samples, e.1.text = o.1.text → e.1 = o.1

instance (samples : List (StatisticId × Reading)) : Decidable (TextsApart samples) :=
  inferInstanceAs (Decidable (∀ e ∈ samples, ∀ o ∈ samples, e.1.text = o.1.text → e.1 = o.1))

/-! ## The last readings -/

theorem mem_of_isLast (last : IsLast samples id r) : (id, r) ∈ samples := by
  obtain ⟨before, after, rfl, -⟩ := last
  exact List.mem_append_right _ List.mem_cons_self

theorem not_isLast_nil : ¬ IsLast [] id r := fun last => List.not_mem_nil (mem_of_isLast last)

theorem isLast_concat {e : StatisticId × Reading} :
    IsLast (samples ++ [e]) id r ↔ if e.1 = id then e.2 = r else IsLast samples id r := by
  rw [IsLast, exists_split_concat, ← IsLast, Prod.ext_iff]
  by_cases own : e.1 = id
  · simp [own]
  · simp [own]

theorem get?_ofList_nil (id : StatisticId) : (ofList []).get? id = none := get?_empty id

theorem ofList_concat (samples : List (StatisticId × Reading)) (e : StatisticId × Reading) :
    ofList (samples ++ [e]) = (ofList samples).insert e.1 e.2 := by
  rw [ofList, List.foldl_append]
  rfl

/-- Of a list, a snapshot has the last reading of each statistic. -/
theorem get?_ofList : (ofList samples).get? id = some r ↔ IsLast samples id r := by
  induction samples using List.reverseRecOn with
  | nil =>
    simp [get?_ofList_nil, not_isLast_nil]
  | append_singleton before e ih =>
    rw [ofList_concat, get?_insert, isLast_concat]
    split
    · rw [Option.some.injEq]
    · exact ih

theorem isSome_get?_ofList : ((ofList samples).get? id).isSome ↔ ∃ e ∈ samples, e.1 = id := by
  induction samples using List.reverseRecOn with
  | nil =>
    simp [get?_ofList_nil]
  | append_singleton before e ih =>
    rw [ofList_concat, get?_insert]
    by_cases own : e.1 = id
    · simp [own]
    · simp [own, ih]

theorem isLast_iff_mem (once : samples.Pairwise fun e o => e.1 ≠ o.1) :
    IsLast samples id r ↔ (id, r) ∈ samples := by
  refine ⟨mem_of_isLast, fun mem => ?_⟩
  obtain ⟨before, after, rfl⟩ := List.append_of_mem mem
  rw [List.pairwise_append, List.pairwise_cons] at once
  exact ⟨before, after, rfl, fun e later => (once.2.1.1 e later).symm⟩

/-! ## The list of a snapshot -/

theorem mem_toList : (id, r) ∈ s.toList ↔ s.get? id = some r := by
  rw [toList, List.mem_mergeSort, Std.ExtTreeMap.mem_toList_iff_getElem?_eq_some]
  rfl

theorem once_toList (s : Snapshot) : s.toList.Pairwise fun e o => e.1 ≠ o.1 := by
  have once : s.readings.toList.Pairwise fun e o => e.1 ≠ o.1 := by
    refine Std.ExtTreeMap.distinct_keys_toList.imp fun apart same => apart ?_
    rw [same, Std.ReflOrd.compare_self]
  exact (List.Perm.pairwise_iff Ne.symm (List.mergeSort_perm _ _)).mpr once

theorem ofList_toList (s : Snapshot) : ofList s.toList = s := by
  ext id r
  rw [get?_ofList, isLast_iff_mem s.once_toList, mem_toList]

theorem sorted_toList (s : Snapshot) : s.toList.Pairwise fun e o => e.1.text ≤ o.1.text := by
  have sorted : s.toList.Pairwise fun e o => decide (e.1.text ≤ o.1.text) := by
    refine List.pairwise_mergeSort (fun a b c first second => ?_) (fun a b => ?_) s.readings.toList
    · rw [decide_eq_true_eq] at first second ⊢
      exact le_trans first second
    · rw [Bool.or_eq_true, decide_eq_true_eq, decide_eq_true_eq]
      exact le_total _ _
  exact sorted.imp of_decide_eq_true

theorem ascending_toList (apart : TextsApart s.toList) :
    s.toList.Pairwise fun e o => e.1.text < o.1.text := by
  refine (s.sorted_toList.and s.once_toList).imp_of_mem fun first second both => ?_
  exact lt_of_le_of_ne both.1 fun same => both.2 (apart _ first _ second same)

/-- A list in ascending order is known by its members. -/
theorem eq_of_ascending {list other : List (StatisticId × Reading)}
    (ascending : list.Pairwise fun e o => e.1.text < o.1.text)
    (ascendingOther : other.Pairwise fun e o => e.1.text < o.1.text)
    (same : ∀ e, e ∈ list ↔ e ∈ other) : list = other := by
  have nodup {l : List (StatisticId × Reading)} (l_ascending : l.Pairwise fun e o => e.1.text < o.1.text) :
      l.Nodup := by
    refine l_ascending.imp fun before equal => ?_
    rw [equal] at before
    exact lt_irrefl _ before
  refine List.Perm.eq_of_pairwise (fun e o _ _ before after => ?_) ascending ascendingOther
    ((List.perm_ext_iff_of_nodup (nodup ascending) (nodup ascendingOther)).mpr same)
  exact absurd before (lt_asymm after)

/-- The list of a snapshot has the last readings of the list that it was made of, in strictly ascending
order of the texts, and is the only such list. It gives the snapshot back, and so itself. A statistic
has its last reading, if it has any. Lists with the same last readings make the same snapshot, which
then has the same list and by which rules are evaluated alike. -/
theorem keeps_last (apart : TextsApart samples) :
    let s := ofList samples
    (s.toList.Pairwise (fun e o => e.1.text < o.1.text) ∧
      ∀ id r, (id, r) ∈ s.toList ↔ IsLast samples id r) ∧
    (∀ list : List (StatisticId × Reading), list.Pairwise (fun e o => e.1.text < o.1.text) →
      (∀ id r, (id, r) ∈ list ↔ IsLast samples id r) → list = s.toList) ∧
    (ofList s.toList = s ∧ (ofList s.toList).toList = s.toList) ∧
    (∀ id, (∀ r, s.get? id = some r ↔ IsLast samples id r) ∧
      ((s.get? id).isSome ↔ ∃ e ∈ samples, e.1 = id)) ∧
    ∀ others, (∀ id r, IsLast samples id r ↔ IsLast others id r) →
      ofList others = s ∧ (ofList others).toList = s.toList ∧
        ∀ rules roster, evaluate rules (ofList others) roster = evaluate rules s roster := by
  intro s
  have members : ∀ id r, (id, r) ∈ s.toList ↔ IsLast samples id r := by
    intro id r
    rw [mem_toList, get?_ofList]
  have ascending : s.toList.Pairwise fun e o => e.1.text < o.1.text := by
    refine ascending_toList fun e first o second => apart e ?_ o ?_
    · exact mem_of_isLast ((members _ _).mp first)
    · exact mem_of_isLast ((members _ _).mp second)
  refine ⟨⟨ascending, members⟩, fun list sorted same => ?_, ⟨ofList_toList s, ?_⟩,
    fun id => ⟨fun r => get?_ofList, isSome_get?_ofList⟩, fun others same => ?_⟩
  · refine eq_of_ascending sorted ascending fun e => ?_
    rw [same, members]
  · rw [ofList_toList]
  · have equal : ofList others = s := by
      ext id r
      rw [get?_ofList, get?_ofList, same]
    exact ⟨equal, by rw [equal], fun _ _ => by rw [equal]⟩

/-- Two readings of the heap with one of the load between them, and the same last readings after
an outdated one of the load. -/
theorem keeps_last_heap :
    let zone : ZoneSet := .ofPieces ["a"] (by decide) (by decide)
    let heap : StatisticId := ⟨"heap", .avg, .minutes 5, none, some zone⟩
    let load : StatisticId := ⟨"cpu", .max, .minutes 1, some "vm", none⟩
    let reading := fun n : Int64 => (⟨.integer n, .ofList ["vm"]⟩ : Reading)
    let samples := [(heap, reading 10), (load, reading 95), (heap, reading 50)]
    let others := [(load, reading 20), (heap, reading 50), (load, reading 95)]
    let list := [(heap, reading 50), (load, reading 95)]
    TextsApart samples ∧ (∀ id r, IsLast samples id r ↔ IsLast others id r) ∧
      (ofList samples).toList = list ∧ (ofList others).toList = list ∧
      ofList list = ofList samples := by
  intro zone heap load reading samples others list
  have apart : TextsApart samples := by decide +kernel
  have sorted : list.Pairwise fun e o => e.1.text < o.1.text := by decide +kernel
  have once : list.Pairwise fun e o => e.1 ≠ o.1 := by decide +kernel
  have different : load ≠ heap := by decide +kernel
  have found : ∀ id, (ofList samples).get? id = (ofList list).get? id ∧
      (ofList others).get? id = (ofList list).get? id := by
    intro id
    by_cases own : load = id
    · subst own
      simp [samples, others, list, ofList, different.symm]
    · by_cases other : heap = id
      · simp [samples, others, list, ofList, own, other]
      · simp [samples, others, list, ofList, own, other]
  have same : ∀ id r, IsLast samples id r ↔ IsLast others id r := by
    intro id r
    rw [← get?_ofList, ← get?_ofList, (found id).1, (found id).2]
  obtain ⟨-, only, ⟨back, -⟩, -, agree⟩ := keeps_last apart
  have listed := only list sorted fun id r => by
    rw [← isLast_iff_mem once, ← get?_ofList, ← get?_ofList, (found id).1]
  exact ⟨apart, same, listed.symm, (agree others same).2.1.trans listed.symm, listed ▸ back⟩

end Autoscaler.Snapshot
