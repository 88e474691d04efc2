import Mathlib.Data.List.Forall2
import Mathlib.Data.List.Induction

/-!
# Lists gone through item by item

A list is gone through from the front, and one item that fails fails the whole. What comes of it, item
by item, when none does. What an item says may be kept or replaced by the items after it, down to the
last one (`exists_split_concat`).
-/

namespace Autoscaler

variable {α β ε : Type} {xs : List α} {ys : List β}

theorem bind_eq_ok {a? : Except ε α} {f : α → Except ε β} {b : β} :
    a? >>= f = .ok b ↔ ∃ a, a? = .ok a ∧ f a = .ok b := by
  cases a? <;> simp [bind, Except.bind]

theorem bind_eq_error {a? : Except ε α} {f : α → Except ε β} {fault : ε} :
    a? >>= f = .error fault ↔ a? = .error fault ∨ ∃ a, a? = .ok a ∧ f a = .error fault := by
  cases a? <;> simp [bind, Except.bind]

theorem mapM_eq_some {f : α → Option β} :
    xs.mapM f = some ys ↔ List.Forall₂ (fun a b => f a = some b) xs ys := by
  induction xs generalizing ys with
  | nil => simp [eq_comm]
  | cons a rest ih =>
    simp only [List.mapM_cons, Option.bind_eq_bind, Option.bind_eq_some_iff, Option.pure_def,
      Option.some.injEq, List.forall₂_cons_left_iff, ih]
    constructor
    · rintro ⟨b, first, others, later, rfl⟩
      exact ⟨b, others, first, later, rfl⟩
    · rintro ⟨b, others, first, later, rfl⟩
      exact ⟨b, first, others, later, rfl⟩

theorem mapM_eq_ok {f : α → Except ε β} :
    xs.mapM f = .ok ys ↔ List.Forall₂ (fun a b => f a = .ok b) xs ys := by
  induction xs generalizing ys with
  | nil => simp [pure, Except.pure, eq_comm]
  | cons a rest ih =>
    rw [List.mapM_cons]
    cases first : f a with
    | error fault => cases ys <;> simp [bind, Except.bind, first]
    | ok b =>
      cases later : rest.mapM f with
      | error fault => cases ys <;> simp [bind, Except.bind, first, ← ih, later]
      | ok others => cases ys <;> simp [bind, Except.bind, pure, Except.pure, first, ← ih, later]

/-- What fails a list is the first of its items that fails. -/
theorem mapM_eq_error {f : α → Except ε β} {fault : ε} : xs.mapM f = .error fault ↔
    ∃ before a after, xs = before ++ a :: after ∧ (∀ b ∈ before, ∃ y, f b = .ok y) ∧ f a = .error fault := by
  induction xs with
  | nil => simp [pure, Except.pure]
  | cons a rest ih =>
    rw [List.mapM_cons, bind_eq_error]
    constructor
    · rintro (first | ⟨y, first, others⟩)
      · exact ⟨[], a, rest, rfl, by simp, first⟩
      · have failed : rest.mapM f = .error fault := by
          rcases bind_eq_error.mp others with failed | ⟨ys, -, done⟩
          · exact failed
          · cases done
        obtain ⟨before, b, after, rfl, passed, fails⟩ := ih.mp failed
        refine ⟨a :: before, b, after, rfl, ?_, fails⟩
        exact List.forall_mem_cons.mpr ⟨⟨y, first⟩, passed⟩
    · rintro ⟨before, b, after, split, passed, fails⟩
      cases before with
      | nil =>
        cases split
        exact .inl fails
      | cons _ before =>
        cases split
        obtain ⟨⟨y, first⟩, passed⟩ := List.forall_mem_cons.mp passed
        exact .inr ⟨y, first, bind_eq_error.mpr (.inl (ih.mpr ⟨before, b, after, rfl, passed, fails⟩))⟩

theorem exists_mem_of_forall₂ {R : α → β → Prop} (all : List.Forall₂ R xs ys) {b : β} (mem : b ∈ ys) :
    ∃ a ∈ xs, R a b := by
  induction all with
  | nil => cases mem
  | @cons a b' xs ys first _ ih =>
    rcases List.mem_cons.mp mem with rfl | mem
    · exact ⟨a, List.mem_cons_self, first⟩
    · obtain ⟨a', listed, related⟩ := ih mem
      exact ⟨a', List.mem_cons_of_mem a listed, related⟩

/-- A list can be gone through when each of its items can. -/
theorem exists_forall₂ {R : α → β → Prop} : (∃ ys, List.Forall₂ R xs ys) ↔ ∀ a ∈ xs, ∃ b, R a b := by
  constructor
  · rintro ⟨ys, all⟩ a mem
    obtain ⟨b, -, related⟩ := exists_mem_of_forall₂ all.flip mem
    exact ⟨b, related⟩
  · intro each
    induction xs with
    | nil => exact ⟨[], .nil⟩
    | cons a rest ih =>
      obtain ⟨b, first⟩ := each a List.mem_cons_self
      obtain ⟨ys, others⟩ := ih fun other mem => each other (List.mem_cons_of_mem a mem)
      exact ⟨b :: ys, .cons first others⟩

/-- An item that all later ones keep is the last one, or the last one keeps it as those before did. -/
theorem exists_split_concat {a last : α} {keeps : α → Prop} :
    (∃ before after, xs ++ [last] = before ++ a :: after ∧ ∀ b ∈ after, keeps b) ↔
      last = a ∨ (∃ before after, xs = before ++ a :: after ∧ ∀ b ∈ after, keeps b) ∧ keeps last := by
  constructor
  · rintro ⟨before, after, split, later⟩
    cases after using List.reverseRecOn with
    | nil =>
      cases List.append_inj_right' split rfl
      exact .inl rfl
    | append_singleton rest b =>
      rw [← List.cons_append, ← List.append_assoc] at split
      obtain ⟨rfl, same⟩ := List.append_inj' split rfl
      cases same
      rw [List.forall_mem_append, List.forall_mem_singleton] at later
      exact .inr ⟨⟨before, rest, rfl, later.1⟩, later.2⟩
  · rintro (rfl | ⟨⟨before, after, rfl, later⟩, kept⟩)
    · exact ⟨xs, [], rfl, List.forall_mem_nil _⟩
    · refine ⟨before, after ++ [last], by simp, ?_⟩
      rw [List.forall_mem_append, List.forall_mem_singleton]
      exact ⟨later, kept⟩

end Autoscaler
