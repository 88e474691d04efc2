import Autoscaler.Document.Record
import Autoscaler.Proofs.Document.Toml.Reader
import Autoscaler.Proofs.Traversal

/-!
# Records read back

A value is kept when its document can be written and reads back as the value (`Kept`). This goes up
through lists and records. A record is written with the fields that it has a value for, and these come
back in another order, so each field is looked up among those that are present (`Record.lookup`).
-/

namespace Autoscaler

open Document (required? optional? defaulted?)
open Toml (Distinct IsItem Orderly Plain arranged arrangedFields depthLimit)

/-! ## Values -/

/-- A value whose document can be written under a path of so many names and reads back as the value. -/
structure Kept {α : Type} (n : Nat) (read : Document → Option α) (write : α → Document) (a : α) :
    Prop where
  orderly : Orderly n (write a)
  back : read (arranged (write a)) = some a

section
variable {n : Nat}

theorem isItem_text (s : String) : IsItem (.text s) := .inr ⟨s, rfl⟩

theorem kept_text (s : String) : Kept n Document.text? .text s := ⟨.plain (.item (isItem_text s)), rfl⟩

theorem orderly_of_kept {α : Type} {read : Document → Option α} {write : α → Document}
    {value : Option α} (kept : ∀ a ∈ value, Kept n read write a) :
    ∀ d ∈ value.map write, Orderly n d := by
  intro d mem
  obtain ⟨a, listed, rfl⟩ := Option.map_eq_some_iff.mp mem
  exact (kept a listed).orderly

/-! ## Lists -/

section
variable {α : Type} {read : Document → Option α} {write : α → Document} {xs : List α}

theorem listOf?_arranged (each : ∀ x ∈ xs, read (arranged (write x)) = some x) :
    (arranged (.list (xs.map write))).listOf? read = some xs := by
  rw [arranged, Toml.arrangedItems_eq_map, List.map_map]
  show (xs.map (arranged ∘ write)).mapM read = some xs
  rw [mapM_eq_some, List.forall₂_map_left_iff, List.forall₂_same]
  exact each

theorem kept_list (shallow : n < depthLimit) (tables : ∀ x ∈ xs, (write x).fields?.isSome = true)
    (each : ∀ x ∈ xs, Kept n read write x) :
    Kept n (·.listOf? read) (fun xs => .list (xs.map write)) xs := by
  refine ⟨.list shallow ?_ ?_, listOf?_arranged fun x mem => (each x mem).back⟩
  · exact List.forall_mem_map.mpr tables
  · exact List.forall_mem_map.mpr fun x mem => (each x mem).orderly

end

theorem kept_texts (names : List String) :
    Kept n (·.listOf? Document.text?) (fun names => .list (names.map .text)) names := by
  refine ⟨.plain (.list ?_), listOf?_arranged fun _ _ => rfl⟩
  exact List.forall_mem_map.mpr fun s _ => isItem_text s

end

/-! ## Records -/

/-- The fields that have a value. -/
def present (entries : List (String × Option Document)) : List (String × Document) :=
  entries.flatMap fun (name, d) => (d.map fun d => (name, d)).toList

theorem present_append (first second : List (String × Option Document)) :
    present (first ++ second) = present first ++ present second := List.flatMap_append

theorem mem_present {entries : List (String × Option Document)} {name : String} {d : Document} :
    (name, d) ∈ present entries ↔ (name, some d) ∈ entries := by
  simp [present]

/-- Fields with names of their own, each of which can be written under a path of so many names. -/
structure Record (n : Nat) (entries : List (String × Option Document)) : Prop where
  distinct : (entries.map Prod.fst).Nodup
  each : ∀ e ∈ entries, ∀ d ∈ e.2, Orderly n d

namespace Record

variable {n : Nat} {entries : List (String × Option Document)} {name : String}

theorem distinct_present (distinct : (entries.map Prod.fst).Nodup) : Distinct (present entries) := by
  induction entries with
  | nil => exact distinct
  | cons e rest ih =>
    obtain ⟨key, value⟩ := e
    have names := List.nodup_cons.mp distinct
    cases value with
    | none => exact ih names.2
    | some d =>
      refine List.nodup_cons.mpr ⟨?_, ih names.2⟩
      intro repeated
      obtain ⟨f, listed, same⟩ := List.mem_map.mp repeated
      exact names.1 (List.mem_map.mpr ⟨(f.1, some f.2), mem_present.mp listed, same⟩)

theorem lookup_of_mem {fields : List (String × Document)} (distinct : Distinct fields) {d : Document}
    (mem : (name, d) ∈ fields) : fields.lookup name = some d := by
  obtain ⟨before, after, rfl⟩ := List.append_of_mem mem
  refine List.lookup_eq_some_iff.mpr ⟨before, after, rfl, fun f listed => ?_⟩
  rw [Distinct, List.map_append, List.nodup_append] at distinct
  exact bne_iff_ne.mpr (distinct.2.2 f.1 (List.mem_map_of_mem listed) name List.mem_cons_self).symm

theorem lookup_present (distinct : (entries.map Prod.fst).Nodup) {value : Option Document}
    (mem : (name, value) ∈ entries) : (present entries).lookup name = value := by
  cases value with
  | none =>
    refine Toml.lookup_eq_none fun listed => ?_
    obtain ⟨⟨_, d⟩, written, rfl⟩ := List.mem_map.mp listed
    cases List.inj_on_of_nodup_map distinct mem (mem_present.mp written) rfl
  | some d => exact lookup_of_mem (distinct_present distinct) (mem_present.mpr mem)

section
variable (record : Record n entries)
include record

theorem orderly_present : ∀ f ∈ present entries, Orderly n f.2 :=
  fun _ mem => record.each _ (mem_present.mp mem) _ rfl

theorem lookup (name : String) {d : Option Document} (mem : (name, d) ∈ entries) :
    (arrangedFields (present entries)).lookup name = d.map arranged := by
  rw [Toml.lookup_arrangedFields (distinct_present record.distinct) record.orderly_present,
    lookup_present record.distinct mem]

variable {α : Type} {read : Document → Option α} {write : α → Document}

theorem required?_eq (name : String) {a : α} (mem : (name, some (write a)) ∈ entries)
    (kept : Kept n read write a) :
    required? (arrangedFields (present entries)) name read = some a := by
  rw [required?, record.lookup name mem]
  exact kept.back

theorem defaulted?_eq (name : String) (default : α) {a : α} (mem : (name, some (write a)) ∈ entries)
    (kept : Kept n read write a) :
    defaulted? (arrangedFields (present entries)) name default read = some a := by
  rw [defaulted?, record.lookup name mem]
  exact kept.back

theorem optional?_eq (name : String) (value : Option α) (mem : (name, value.map write) ∈ entries)
    (kept : ∀ a ∈ value, Kept n read write a) (null : read .null = none) :
    optional? (arrangedFields (present entries)) name read = some value := by
  rw [optional?, record.lookup name mem]
  cases value with
  | none => rfl
  | some a =>
    have back := (kept a rfl).back
    simp only [Option.map_some]
    split
    · rename_i none
      cases none
    · rename_i nothing
      rw [Option.some.inj nothing, null] at back
      cases back
    · rename_i d _ same
      rw [← Option.some.inj same, back]
      rfl

end

theorem optional?_text (record : Record n entries) (name : String) (value : Option String)
    (mem : (name, value.map .text) ∈ entries) :
    optional? (arrangedFields (present entries)) name Document.text? = some value :=
  record.optional?_eq name value mem (fun s _ => kept_text s) rfl

/-- A record reads back when its fields do. -/
theorem kept {α : Type} {read : Document → Option α} {write : α → Document} {a : α}
    (record : Record (n + 1) entries) (shallow : n < depthLimit)
    (written : write a = .table (present entries))
    (back : read (.table (arrangedFields (present entries))) = some a) : Kept n read write a where
  orderly := by
    rw [written]
    exact .table shallow (distinct_present record.distinct) record.orderly_present
  back := by
    rw [written]
    exact back

end Record

end Autoscaler
