import Autoscaler.Document.Toml.Printer
import Autoscaler.Document.Toml.Reader
import Autoscaler.Proofs.Document.Toml.Scalar
import Mathlib.Data.List.Nodup

/-!
# Sections of TOML assembled again

Each section of a table that is written opens a table, or an element of a list of tables, and gives it
its direct values. Together they build the table up again, with the fields that have sections of their
own after the others (`assemble_statementsOf`). A section below a name does there what it would do at the
root (`changesOf_under`), and what is already complete stays as it is (`all_last_table`,
`all_last_tables`), so that one field can be added after the other (`adds_of_orderly`).
-/

namespace Autoscaler.Toml

/-! ## Documents as they are written -/

mutual

/-- A document with the direct fields of its tables before the others. -/
def arranged : Document → Document
  | .table fields => .table (directPairs fields ++ arrangedSections fields)
  | .list items => .list (arrangedItems items)
  | d => d

/-- The fields of a table that are not direct. -/
def arrangedSections : List (String × Document) → List (String × Document)
  | [] => []
  | (name, d) :: rest =>
    if isSectioned d then (name, arranged d) :: arrangedSections rest else arrangedSections rest

/-- The items of a list. -/
def arrangedItems : List Document → List Document
  | [] => []
  | d :: rest => arranged d :: arrangedItems rest

end

/-- The fields of a table as they are written. -/
def arrangedFields (fields : List (String × Document)) : List (String × Document) :=
  directPairs fields ++ arrangedSections fields

/-- The fields of a table have names of their own. -/
def Distinct (fields : List (String × Document)) : Prop := (fields.map Prod.fst).Nodup

/-- A value on one line: a scalar or a text. -/
def IsItem (d : Document) : Prop := IsScalar d ∨ ∃ s, d = .text s

/-- A value that is written after an equals sign, tables on one line left out. -/
inductive Plain : Document → Prop where
  | item {d : Document} (single : IsItem d) : Plain d
  | list {items : List Document} (all : ∀ i ∈ items, IsItem i) : Plain (.list items)

/-- A document under a path of so many names whose tables can be told apart by their paths. No path is
too long to be read. -/
inductive Orderly : Nat → Document → Prop where
  | plain {n : Nat} {d : Document} (plain : Plain d) : Orderly n d
  | table {n : Nat} {fields : List (String × Document)} (shallow : n < depthLimit)
      (distinct : Distinct fields) (each : ∀ f ∈ fields, Orderly (n + 1) f.2) :
      Orderly n (.table fields)
  | tables {n : Nat} {items : List Document} (shallow : n < depthLimit)
      (sectioned : isSectioned (.list items) = true)
      (distinct : ∀ fields, .table fields ∈ items → Distinct fields)
      (each : ∀ fields, .table fields ∈ items → ∀ f ∈ fields, Orderly (n + 1) f.2) :
      Orderly n (.list items)

theorem IsItem.fields?_eq_none {d : Document} (single : IsItem d) : d.fields? = none := by
  rcases single with scalar | ⟨s, rfl⟩
  · cases d with
    | table fields => cases scalar
    | _ => rfl
  · rfl

theorem Plain.isSectioned_eq_false {d : Document} (plain : Plain d) : isSectioned d = false := by
  cases plain with
  | item single =>
    rcases single with scalar | ⟨s, rfl⟩
    · cases d with
      | table fields => cases scalar
      | list items => cases scalar
      | _ => rfl
    · rfl
  | @list items all =>
    cases items with
    | nil => rfl
    | cons i rest => simp [isSectioned, (all i List.mem_cons_self).fields?_eq_none]

/-- A document without sections is written on the right of an equals sign. -/
theorem Orderly.plain_of_direct {n : Nat} {d : Document} (orderly : Orderly n d)
    (direct : isSectioned d = false) : Plain d := by
  cases orderly with
  | plain plain => exact plain
  | table => cases direct
  | tables _ sectioned => simp [sectioned] at direct

theorem arrangedItems_eq_map (items : List Document) : arrangedItems items = items.map arranged := by
  induction items with
  | nil => rfl
  | cons d rest ih => rw [arrangedItems, ih, List.map_cons]

theorem IsItem.arranged_eq {d : Document} (single : IsItem d) : arranged d = d := by
  rcases single with scalar | ⟨s, rfl⟩
  · cases d with
    | table fields => cases scalar
    | list items => cases scalar
    | _ => rfl
  · rfl

theorem Plain.arranged_eq {d : Document} (plain : Plain d) : arranged d = d := by
  cases plain with
  | item single => exact single.arranged_eq
  | @list items all =>
    rw [arranged, arrangedItems_eq_map, List.map_congr_left fun i mem => (all i mem).arranged_eq,
      List.map_id']

theorem arrangedFields_of_plain {fields : List (String × Document)}
    (plain : ∀ f ∈ fields, Plain f.2) : arrangedFields fields = fields := by
  induction fields with
  | nil => rfl
  | cons f rest ih =>
    obtain ⟨name, d⟩ := f
    have direct := (plain _ List.mem_cons_self).isSectioned_eq_false
    have later := ih fun g mem => plain g (List.mem_cons_of_mem _ mem)
    have first : arrangedFields ((name, d) :: rest) = (name, d) :: arrangedFields rest := by
      simp [arrangedFields, arrangedSections, directPairs, direct]
    rw [first, later]

theorem Orderly.of_table {n : Nat} {fields : List (String × Document)}
    (orderly : Orderly n (.table fields)) : Distinct fields ∧ ∀ f ∈ fields, Orderly (n + 1) f.2 := by
  cases orderly with
  | plain plain => cases plain.isSectioned_eq_false
  | table _ distinct each => exact ⟨distinct, each⟩

/-- A list of tables that can be told apart, each of them, by their paths. -/
theorem Orderly.list {n : Nat} {items : List Document} (shallow : n < depthLimit)
    (tables : ∀ i ∈ items, i.fields?.isSome = true) (each : ∀ i ∈ items, Orderly n i) :
    Orderly n (.list items) := by
  by_cases none : items = []
  · subst none
    exact .plain (.list nofun)
  · have sectioned : isSectioned (.list items) = true := by simpa [isSectioned, none] using tables
    exact .tables shallow sectioned (fun _ mem => (each _ mem).of_table.1)
      (fun _ mem => (each _ mem).of_table.2)

theorem lookup_eq_none {β : Type} {name : String} {entries : List (String × β)}
    (absent : name ∉ entries.map Prod.fst) : entries.lookup name = none := by
  rw [List.lookup_eq_none_iff]
  intro e mem
  rw [bne_iff_ne]
  rintro rfl
  exact absent (List.mem_map_of_mem mem)

/-- The fields of a table change their order, but each is found by its name. -/
theorem lookup_arrangedFields {n : Nat} {fields : List (String × Document)} (distinct : Distinct fields)
    (each : ∀ f ∈ fields, Orderly n f.2) (name : String) :
    (arrangedFields fields).lookup name = (fields.lookup name).map arranged := by
  induction fields with
  | nil => rfl
  | cons f rest ih =>
    obtain ⟨key, d⟩ := f
    have names := List.nodup_cons.mp distinct
    have later := ih names.2 fun g mem => each g (List.mem_cons_of_mem _ mem)
    rw [arrangedFields, List.lookup_append] at later
    by_cases sectioned : isSectioned d = true
    · have moved : arrangedFields ((key, d) :: rest) =
          directPairs rest ++ (key, arranged d) :: arrangedSections rest := by
        simp [arrangedFields, arrangedSections, directPairs, sectioned]
      rw [moved, List.lookup_append]
      by_cases same : name = key
      · subst same
        have absent : (directPairs rest).lookup name = none :=
          lookup_eq_none fun mem => names.1 ((List.filter_sublist.map Prod.fst).subset mem)
        simp [absent]
      · have other : (name == key) = false := by simpa using same
        rw [List.lookup_cons, List.lookup_cons, other]
        exact later
    · have first := ((each _ List.mem_cons_self).plain_of_direct (by simpa using sectioned)).arranged_eq
      have kept : arrangedFields ((key, d) :: rest) =
          (key, d) :: (directPairs rest ++ arrangedSections rest) := by
        simp [arrangedFields, arrangedSections, directPairs, sectioned]
      rw [kept, List.lookup_cons, List.lookup_cons, List.lookup_append, later]
      split
      · exact congrArg some first.symm
      · rfl

/-! ## Fields under construction -/

namespace Item

variable {fields : List (String × Item)} {name : String} {item : Item}

theorem documentFields_append (first second : List (String × Item)) :
    documentFields (first ++ second) = documentFields first ++ documentFields second := by
  induction first with
  | nil => rfl
  | cons f rest ih => exact congrArg ((f.1, document f.2) :: ·) ih

theorem lookup_last (absent : fields.lookup name = none) :
    (fields ++ [(name, item)]).lookup name = some item := by
  simp [List.lookup_append, absent]

theorem lookup_before_last {key : String} (absent : fields.lookup name = none) (other : name ≠ key) :
    (fields ++ [(key, item)]).lookup name = none := by
  have apart : (name == key) = false := by simpa using other
  simp [List.lookup_append, absent, List.lookup_cons, apart]

theorem put_last (absent : fields.lookup name = none) (item' : Item) :
    put (fields ++ [(name, item)]) name item' = fields ++ [(name, item')] := by
  induction fields with
  | nil => simp [put]
  | cons f rest ih =>
    have other : ¬ name = f.1 := by
      rintro rfl
      simp at absent
    have later : rest.lookup name = none := by
      simpa [List.lookup_cons, other] using absent
    rw [List.cons_append, put, if_neg (Ne.symm other), ih later]
    rfl

end Item

/-! ## Changes in turn -/

/-- Changes one after the other. -/
def Change.all : List Change → Change
  | [] => fun _ fields => some fields
  | change :: rest => fun origin fields => (change origin fields).bind (Change.all rest origin)

/-- A change of the table under a name. -/
def Change.under (name : String) (change : Change) : Change := alter false change [name]

section
variable {changes : List Change} {fields inner : List (String × Item)} {name : String} {origin : Origin}

theorem all_append (first second : List Change) (origin : Origin) (fields : List (String × Item)) :
    Change.all (first ++ second) origin fields =
      (Change.all first origin fields).bind (Change.all second origin) := by
  induction first generalizing fields with
  | nil => rfl
  | cons change rest ih =>
    cases changed : change origin fields with
    | none => simp [Change.all, changed]
    | some after => simp [Change.all, changed, ih]

theorem alter_cons (change : Change) (name : String) (path : List String) :
    alter false change (name :: path) = Change.under name (alter false change path) := by
  funext origin fields
  rw [Change.under, alter, alter]
  rfl

theorem under_last_table (change : Change) (absent : fields.lookup name = none) (t : Origin) :
    change.under name origin (fields ++ [(name, .table t inner)]) =
      (change t inner).map fun inner => fields ++ [(name, .table t inner)] := by
  simp only [Change.under, alter, Item.lookup_last absent, Bool.false_eq_true, false_and, if_false]
  cases change t inner with
  | none => rfl
  | some after => exact congrArg some (Item.put_last absent _)

theorem under_last_tables (change : Change) (absent : fields.lookup name = none)
    (before : List (List (String × Item))) :
    change.under name origin (fields ++ [(name, .tables (before ++ [inner]))]) =
      (change .header inner).map fun inner => fields ++ [(name, .tables (before ++ [inner]))] := by
  simp only [Change.under, alter, Item.lookup_last absent, List.getLast?_concat, List.dropLast_concat]
  cases change .header inner with
  | none => rfl
  | some after => exact congrArg some (Item.put_last absent _)

theorem under_missing (change : Change) (absent : fields.lookup name = none) :
    change.under name origin fields =
      (change .implied []).map fun inner => fields ++ [(name, .table .implied inner)] := by
  simp [Change.under, alter, absent]

/-- What is done to the last table leaves the others alone. -/
theorem all_last_table (absent : fields.lookup name = none) (t : Origin) :
    Change.all (changes.map (Change.under name)) origin (fields ++ [(name, .table t inner)]) =
      (Change.all changes t inner).map fun inner => fields ++ [(name, .table t inner)] := by
  induction changes generalizing inner with
  | nil => rfl
  | cons change rest ih =>
    simp only [List.map_cons, Change.all, under_last_table change absent]
    cases change t inner with
    | none => rfl
    | some after => exact ih

/-- What is done to the last element of a list of tables leaves the others alone. -/
theorem all_last_tables (absent : fields.lookup name = none) (before : List (List (String × Item))) :
    Change.all (changes.map (Change.under name)) origin
        (fields ++ [(name, .tables (before ++ [inner]))]) =
      (Change.all changes .header inner).map fun inner =>
        fields ++ [(name, .tables (before ++ [inner]))] := by
  induction changes generalizing inner with
  | nil => rfl
  | cons change rest ih =>
    simp only [List.map_cons, Change.all, under_last_tables change absent]
    cases change .header inner with
    | none => rfl
    | some after => exact ih

/-- The first change below a name makes the table there. -/
theorem all_missing (absent : fields.lookup name = none) (some : changes ≠ []) :
    Change.all (changes.map (Change.under name)) origin fields =
      (Change.all changes .implied []).map fun inner => fields ++ [(name, .table .implied inner)] := by
  cases changes with
  | nil => exact absurd rfl some
  | cons change rest =>
    simp only [List.map_cons, Change.all, under_missing change absent]
    cases change .implied [] with
    | none => rfl
    | some after => exact all_last_table absent .implied

end

/-! ## What a section does -/

namespace Section

/-- The header of a section as a statement. -/
def opening (s : Section) : Statement :=
  if s.isElement then .element s.path.dropLast (s.path.getLastD "")
  else .header s.path.dropLast (s.path.getLastD "")

/-- A section as statements. -/
def statements (s : Section) : List Statement :=
  s.opening :: s.pairs.map fun (name, d) => .pair [] name d

/-- What the statements of a section do to the fields at the root, one after the other. -/
def changes (s : Section) : List Change :=
  alter false ((if s.isElement then openElement else openTable) (s.path.getLastD "")) s.path.dropLast ::
    s.pairs.map fun (name, d) => alter false (definePair [] name d) s.path

/-- A section below a name. -/
def under (name : String) (s : Section) : Section := { s with path := name :: s.path }

end Section

/-- What sections do, one after the other. -/
def changesOf (sections : List Section) : List Change := sections.flatMap Section.changes

section
variable {s : Section} {name : String} {path : List String}

theorem changes_under (deep : s.path ≠ []) :
    (s.under name).changes = s.changes.map (Change.under name) := by
  obtain ⟨path, isElement, pairs⟩ := s
  obtain ⟨first, rest, rfl⟩ := List.exists_cons_of_ne_nil deep
  simp only [Section.changes, Section.under, List.dropLast_cons_cons, alter_cons, List.map_cons,
    List.map_map]
  rfl

theorem changesOf_under {sections : List Section} (deep : ∀ s ∈ sections, s.path ≠ []) :
    changesOf (sections.map (Section.under name)) = (changesOf sections).map (Change.under name) := by
  rw [changesOf, changesOf, List.flatMap_map, List.map_flatMap]
  exact List.flatMap_congr fun s mem => changes_under (deep s mem)

end

mutual

theorem sectionsOf_cons (name : String) (path : List String) :
    ∀ d, sectionsOf (name :: path) d = (sectionsOf path d).map (Section.under name)
  | .table fields => by
    rw [sectionsOf, sectionsOf, sectionsOfFields_cons name path fields]
    split <;> rfl
  | .list items => by
    rw [sectionsOf, sectionsOf]
    split
    · exact sectionsOfItems_cons name path items
    · rfl
  | .null | .boolean _ | .integer _ | .float _ | .text _ | .overflow | .illFormed => rfl

theorem sectionsOfFields_cons (name : String) (path : List String) :
    ∀ fields, sectionsOfFields (name :: path) fields =
      (sectionsOfFields path fields).map (Section.under name)
  | [] => rfl
  | (key, d) :: rest => by
    rw [sectionsOfFields, sectionsOfFields, List.map_append, ← sectionsOfFields_cons name path rest,
      ← sectionsOf_cons name (path ++ [key]) d]
    rfl

theorem sectionsOfItems_cons (name : String) (path : List String) :
    ∀ items, sectionsOfItems (name :: path) items =
      (sectionsOfItems path items).map (Section.under name)
  | [] => rfl
  | .table fields :: rest => by
    rw [sectionsOfItems, sectionsOfItems, List.map_append, List.map_cons,
      ← sectionsOfItems_cons name path rest, ← sectionsOfFields_cons name path fields]
    rfl
  | .list _ :: rest | .null :: rest | .boolean _ :: rest | .integer _ :: rest | .float _ :: rest
  | .text _ :: rest | .overflow :: rest | .illFormed :: rest => sectionsOfItems_cons name path rest

end

theorem path_ne_nil {fields : List (String × Document)} {s : Section}
    (mem : s ∈ sectionsOfFields [] fields) : s.path ≠ [] := by
  induction fields with
  | nil => cases mem
  | cons f rest ih =>
    rw [sectionsOfFields, List.nil_append, sectionsOf_cons] at mem
    rcases List.mem_append.mp mem with first | later
    · obtain ⟨inner, -, rfl⟩ := List.mem_map.mp first
      exact List.cons_ne_nil f.1 inner.path
    · exact ih later

/-- What is done below a name for the fields of the table there. -/
theorem changesOf_fields (name : String) (fields : List (String × Document)) :
    changesOf (sectionsOfFields [name] fields) =
      (changesOf (sectionsOfFields [] fields)).map (Change.under name) := by
  rw [sectionsOfFields_cons, changesOf_under fun s mem => path_ne_nil mem]

theorem sectionsOf_of_direct {d : Document} (direct : isSectioned d = false) (path : List String) :
    sectionsOf path d = [] := by
  cases d with
  | table fields => cases direct
  | list items =>
    rw [isSectioned] at direct
    simp only [sectionsOf, direct, Bool.false_eq_true, if_false]
  | _ => rfl

/-! ## One field after the other -/

/-- The direct fields of a table under construction. -/
def directItems (pairs : List (String × Document)) : List (String × Item) :=
  pairs.map fun (name, d) => (name, .value d)

/-- The changes for direct fields. -/
def definitions (pairs : List (String × Document)) : List Change :=
  pairs.map fun (name, d) => definePair [] name d

/-- What the sections of a table with a header do, below the name of the header. -/
theorem changesOf_header (name : String) (isElement : Bool) (pairs fields : List (String × Document)) :
    changesOf (⟨[name], isElement, pairs⟩ :: sectionsOfFields [name] fields) =
      (if isElement then openElement else openTable) name ::
        (definitions pairs ++ changesOf (sectionsOfFields [] fields)).map (Change.under name) := by
  have first : changesOf (⟨[name], isElement, pairs⟩ :: sectionsOfFields [name] fields) =
      Section.changes ⟨[name], isElement, pairs⟩ ++ changesOf (sectionsOfFields [name] fields) := rfl
  rw [first, changesOf_fields, List.map_append, definitions, List.map_map]
  rfl

theorem documentFields_directItems (pairs : List (String × Document)) :
    Item.documentFields (directItems pairs) = pairs := by
  induction pairs with
  | nil => rfl
  | cons f rest ih => exact congrArg (f :: ·) ih

section
variable {fields : List (String × Document)} {before : List (String × Item)} {origin : Origin}

theorem all_definitions (distinct : Distinct fields) (plain : origin ≠ .dotted)
    (apart : ∀ f ∈ fields, before.lookup f.1 = none) :
    Change.all (definitions fields) origin before = some (before ++ directItems fields) := by
  induction fields generalizing before with
  | nil => simp [definitions, directItems, Change.all]
  | cons f rest ih =>
    have first := apart f List.mem_cons_self
    have names := List.nodup_cons.mp distinct
    have later : ∀ g ∈ rest, (before ++ [(f.1, Item.value f.2)]).lookup g.1 = none := by
      intro g mem
      have other : g.1 ≠ f.1 := fun same => names.1 (same ▸ List.mem_map_of_mem mem)
      exact Item.lookup_before_last (apart g (List.mem_cons_of_mem f mem)) other
    have defined : definePair [] f.1 f.2 origin before = some (before ++ [(f.1, .value f.2)]) := by
      simp [definePair, alter, plain, first]
    calc Change.all (definitions (f :: rest)) origin before
        = (definePair [] f.1 f.2 origin before).bind (Change.all (definitions rest) origin) := rfl
      _ = some (before ++ [(f.1, .value f.2)] ++ directItems rest) := by
        rw [defined]
        exact ih names.2 later
      _ = some (before ++ directItems (f :: rest)) := by
        rw [List.append_assoc]
        rfl

/-- The sections of a document under a name add an item for it. -/
def Adds (d : Document) : Prop :=
  ∀ (name : String) (origin : Origin) (before : List (String × Item)), before.lookup name = none →
    ∃ item, item.document = arranged d ∧
      Change.all (changesOf (sectionsOf [name] d)) origin before = some (before ++ [(name, item)])

theorem exists_items (origin : Origin) (before : List (String × Item)) (distinct : Distinct fields)
    (each : ∀ f ∈ fields, isSectioned f.2 = true → Adds f.2)
    (apart : ∀ f ∈ fields, isSectioned f.2 = true → before.lookup f.1 = none) :
    ∃ items, Item.documentFields items = arrangedSections fields ∧
      Change.all (changesOf (sectionsOfFields [] fields)) origin before = some (before ++ items) := by
  induction fields generalizing before with
  | nil => exact ⟨[], rfl, by simp [changesOf, sectionsOfFields, Change.all]⟩
  | cons f rest ih =>
    have names := List.nodup_cons.mp distinct
    have each' : ∀ g ∈ rest, isSectioned g.2 = true → Adds g.2 := fun g mem =>
      each g (List.mem_cons_of_mem f mem)
    have split : changesOf (sectionsOfFields [] (f :: rest)) =
        changesOf (sectionsOf [f.1] f.2) ++ changesOf (sectionsOfFields [] rest) := by
      simp [changesOf, sectionsOfFields]
    rw [split, arrangedSections, all_append]
    by_cases sectioned : isSectioned f.2 = true
    · obtain ⟨item, document, added⟩ := each f List.mem_cons_self sectioned f.1 origin before
        (apart f List.mem_cons_self sectioned)
      have later : ∀ g ∈ rest, isSectioned g.2 = true → (before ++ [(f.1, item)]).lookup g.1 = none := by
        intro g mem kind
        have other : g.1 ≠ f.1 := fun same => names.1 (same ▸ List.mem_map_of_mem mem)
        exact Item.lookup_before_last (apart g (List.mem_cons_of_mem f mem) kind) other
      obtain ⟨items, documents, all⟩ := ih _ names.2 each' later
      refine ⟨(f.1, item) :: items, ?_, ?_⟩
      · rw [if_pos sectioned, Item.documentFields, document, documents]
      · simp [added, all]
    · obtain ⟨items, documents, all⟩ := ih _ names.2 each' fun g mem =>
        apart g (List.mem_cons_of_mem f mem)
      have direct : isSectioned f.2 = false := by simpa using sectioned
      refine ⟨items, ?_, ?_⟩
      · rw [if_neg sectioned, documents]
      · rw [sectionsOf_of_direct direct]
        exact all

/-- The names of direct fields and those of the others are apart. -/
theorem lookup_directItems (distinct : Distinct fields) {f : String × Document} (mem : f ∈ fields)
    (sectioned : isSectioned f.2 = true) : (directItems (directPairs fields)).lookup f.1 = none := by
  refine lookup_eq_none fun listed => ?_
  rw [directItems, List.map_map] at listed
  obtain ⟨g, direct, same⟩ := List.mem_map.mp listed
  obtain ⟨member, kind⟩ := List.mem_filter.mp direct
  have equal : g = f := List.inj_on_of_nodup_map distinct member mem same
  subst equal
  simp [sectioned] at kind

/-- The fields of a table that has a header of its own. -/
theorem exists_fields (origin : Origin) (plain : origin ≠ .dotted) (distinct : Distinct fields)
    (each : ∀ f ∈ fields, isSectioned f.2 = true → Adds f.2) :
    ∃ items, Item.documentFields items = arrangedFields fields ∧
      Change.all (definitions (directPairs fields) ++ changesOf (sectionsOfFields [] fields)) origin [] =
        some items := by
  have direct : Distinct (directPairs fields) :=
    List.Nodup.sublist (List.Sublist.map Prod.fst List.filter_sublist) distinct
  obtain ⟨items, documents, all⟩ := exists_items origin _ distinct each
    fun f mem => lookup_directItems distinct mem
  refine ⟨directItems (directPairs fields) ++ items, ?_, ?_⟩
  · rw [Item.documentFields_append, documentFields_directItems, documents, arrangedFields]
  · rw [all_append, all_definitions direct plain fun f mem => rfl]
    exact all

/-- A table under construction with a list of tables in it, which comes with its first element. -/
def withElements (before : List (String × Item)) (name : String)
    (elements : List (List (String × Item))) : List (String × Item) :=
  if elements = [] then before else before ++ [(name, .tables elements)]

variable {name : String} (absent : before.lookup name = none)
include absent

theorem openElement_withElements (origin : Origin) (elements : List (List (String × Item))) :
    openElement name origin (withElements before name elements) =
      some (before ++ [(name, .tables (elements ++ [[]]))]) := by
  by_cases none : elements = []
  · subst none
    simp [openElement, withElements, absent]
  · simp only [openElement, withElements, if_neg none, Item.lookup_last absent]
    exact congrArg some (Item.put_last absent _)

theorem exists_elements (origin : Origin) {items : List Document}
    (tables : ∀ i ∈ items, i.fields?.isSome = true)
    (distinct : ∀ fields, .table fields ∈ items → Distinct fields)
    (each : ∀ fields, .table fields ∈ items → ∀ f ∈ fields, isSectioned f.2 = true → Adds f.2)
    (elements : List (List (String × Item))) :
    ∃ more, Item.documentElements more = arrangedItems items ∧
      Change.all (changesOf (sectionsOfItems [name] items)) origin
        (withElements before name elements) = some (withElements before name (elements ++ more)) := by
  induction items generalizing elements with
  | nil => exact ⟨[], rfl, by simp [changesOf, sectionsOfItems, Change.all]⟩
  | cons i rest ih =>
    obtain ⟨fields, table⟩ := Option.isSome_iff_exists.mp (tables i List.mem_cons_self)
    cases i with
    | table fields' =>
      obtain ⟨made, documents, all⟩ := exists_fields .header nofun
        (distinct fields' List.mem_cons_self) (each fields' List.mem_cons_self)
      obtain ⟨more, others, later⟩ := ih (fun i mem => tables i (List.mem_cons_of_mem _ mem))
        (fun fields mem => distinct fields (List.mem_cons_of_mem _ mem))
        (fun fields mem => each fields (List.mem_cons_of_mem _ mem)) (elements ++ [made])
      have after : withElements before name (elements ++ [made]) =
          before ++ [(name, .tables (elements ++ [made]))] := by simp [withElements]
      have split : changesOf (sectionsOfItems [name] (.table fields' :: rest)) =
          changesOf (⟨[name], true, directPairs fields'⟩ :: sectionsOfFields [name] fields') ++
            changesOf (sectionsOfItems [name] rest) := by
        simp [changesOf, sectionsOfItems]
      refine ⟨made :: more, ?_, ?_⟩
      · rw [Item.documentElements, documents, others]
        rfl
      · have opened := openElement_withElements absent origin elements
        have filled : Change.all (changesOf (⟨[name], true, directPairs fields'⟩ ::
            sectionsOfFields [name] fields')) origin (withElements before name elements) =
              some (withElements before name (elements ++ [made])) := by
          simp only [changesOf_header, Change.all, if_true, opened, Option.bind_some]
          rw [all_last_tables absent elements, all, after]
          rfl
        rw [split, all_append, filled, Option.bind_some, later, List.append_assoc]
        rfl
    | _ => cases table

end

/-- A table without direct fields gets no header, but the tables in it do. -/
theorem sectionsOf_table_of_header {fields : List (String × Document)} {path : List String}
    (header : fields = [] ∨ directPairs fields ≠ []) : sectionsOf path (.table fields) =
      ⟨path, false, directPairs fields⟩ :: sectionsOfFields path fields := by
  rw [sectionsOf, if_pos]
  rcases header with empty | direct
  · simp [empty]
  · simp [direct]

theorem sectionsOf_table_of_no_header {fields : List (String × Document)} {path : List String}
    (some : fields ≠ []) (none : directPairs fields = []) :
    sectionsOf path (.table fields) = sectionsOfFields path fields := by
  rw [sectionsOf, if_neg]
  simp [some, none]

section
variable {fields : List (String × Document)} (distinct : Distinct fields)
  (each : ∀ f ∈ fields, isSectioned f.2 = true → Adds f.2)
include distinct each

theorem adds_table_of_header (header : fields = [] ∨ directPairs fields ≠ []) : Adds (.table fields) := by
  intro name origin before absent
  obtain ⟨items, documents, all⟩ := exists_fields .header nofun distinct each
  refine ⟨.table .header items, ?_, ?_⟩
  · rw [Item.document, documents]
    rfl
  · have opened : openTable name origin before = some (before ++ [(name, .table .header [])]) := by
      simp [openTable, absent]
    rw [sectionsOf_table_of_header header]
    simp only [changesOf_header, Change.all, Bool.false_eq_true, if_false, opened, Option.bind_some]
    rw [all_last_table absent .header, all]
    rfl

/-- The first table in it makes a table without a header. -/
theorem adds_table_of_no_header (some : fields ≠ []) (none : directPairs fields = []) :
    Adds (.table fields) := by
  intro name origin before absent
  obtain ⟨items, documents, all⟩ := exists_items .implied [] distinct each fun _ _ _ => rfl
  have changes : changesOf (sectionsOfFields [] fields) ≠ [] := by
    intro unchanged
    rw [unchanged] at all
    cases fields with
    | nil => exact some rfl
    | cons f rest =>
      have sectioned : isSectioned f.2 = true := by
        by_contra direct
        simp [directPairs, direct] at none
      cases all
      simp [Item.documentFields, arrangedSections, sectioned] at documents
  refine ⟨.table .implied items, ?_, ?_⟩
  · rw [Item.document, documents, arranged, none]
    rfl
  · rw [sectionsOf_table_of_no_header some none, changesOf_fields, all_missing absent changes, all]
    rfl

end

theorem adds_tables {items : List Document} (sectioned : isSectioned (.list items) = true)
    (distinct : ∀ fields, .table fields ∈ items → Distinct fields)
    (each : ∀ fields, .table fields ∈ items → ∀ f ∈ fields, isSectioned f.2 = true → Adds f.2) :
    Adds (.list items) := by
  intro name origin before absent
  have tables : items ≠ [] ∧ ∀ i ∈ items, i.fields?.isSome = true := by
    simpa [isSectioned] using sectioned
  obtain ⟨elements, documents, all⟩ := exists_elements absent origin tables.2 distinct each []
  have nonempty : elements ≠ [] := by
    rintro rfl
    cases items with
    | nil => exact tables.1 rfl
    | cons i rest => cases documents
  refine ⟨.tables elements, ?_, ?_⟩
  · rw [Item.document, documents]
    rfl
  · have same : sectionsOf [name] (.list items) = sectionsOfItems [name] items := by
      rw [sectionsOf, if_pos]
      exact sectioned
    rw [same]
    simpa [withElements, nonempty] using all

/-- The sections of an orderly document build it up again. -/
theorem adds_of_orderly {n : Nat} {d : Document} (orderly : Orderly n d) :
    isSectioned d = true → Adds d := by
  induction orderly with
  | plain plain => exact fun sectioned => absurd sectioned (by simp [plain.isSectioned_eq_false])
  | @table n fields _ distinct _ each =>
    intro _
    by_cases header : fields = [] ∨ directPairs fields ≠ []
    · exact adds_table_of_header distinct each header
    · rw [not_or, not_not] at header
      exact adds_table_of_no_header distinct each header.1 header.2
  | tables _ sectioned distinct _ each => exact fun _ => adds_tables sectioned distinct each

/-! ## Statements in turn -/

theorem foldlM_add_pairs (pairs : List (String × Document)) (path : List String)
    (fields : List (String × Item)) :
    (pairs.map fun (name, d) => Statement.pair [] name d).foldlM Draft.add ⟨fields, path⟩ =
      (Change.all (pairs.map fun (name, d) => alter false (definePair [] name d) path) .header
        fields).map (⟨·, path⟩) := by
  induction pairs generalizing fields with
  | nil => rfl
  | cons f rest ih =>
    simp only [List.map_cons, List.foldlM_cons, Draft.add, Change.all]
    cases alter false (definePair [] f.1 f.2) path .header fields with
    | none => rfl
    | some after => exact ih after

theorem add_opening {s : Section} (deep : s.path ≠ []) (draft : Draft) :
    draft.add s.opening = (alter false ((if s.isElement then openElement else openTable)
      (s.path.getLastD "")) s.path.dropLast .header draft.fields).map (⟨·, s.path⟩) := by
  have whole : s.path.dropLast ++ [s.path.getLastD ""] = s.path := by
    rw [List.getLastD_eq_getLast?, List.getLast?_eq_some_getLast deep, Option.getD_some,
      List.dropLast_append_getLast]
  rw [Section.opening]
  split <;> simp only [Draft.add, whole]

theorem foldlM_add_section {s : Section} (deep : s.path ≠ []) (draft : Draft) :
    s.statements.foldlM Draft.add draft =
      (Change.all s.changes .header draft.fields).map (⟨·, s.path⟩) := by
  simp only [Section.statements, Section.changes, List.foldlM_cons, add_opening deep, Change.all]
  cases alter false ((if s.isElement then openElement else openTable) (s.path.getLastD ""))
      s.path.dropLast .header draft.fields with
  | none => rfl
  | some after => exact foldlM_add_pairs s.pairs s.path after

theorem foldlM_add_sections {sections : List Section} (deep : ∀ s ∈ sections, s.path ≠ [])
    (draft : Draft) {after : List (String × Item)}
    (all : Change.all (changesOf sections) .header draft.fields = some after) :
    ∃ current, (sections.flatMap Section.statements).foldlM Draft.add draft = some ⟨after, current⟩ := by
  induction sections generalizing draft with
  | nil =>
    cases all
    exact ⟨draft.current, rfl⟩
  | cons s rest ih =>
    have split : changesOf (s :: rest) = s.changes ++ changesOf rest := rfl
    rw [split, all_append, Option.bind_eq_some_iff] at all
    obtain ⟨between, first, later⟩ := all
    obtain ⟨current, last⟩ := ih (fun s mem => deep s (List.mem_cons_of_mem _ mem))
      ⟨between, s.path⟩ later
    refine ⟨current, ?_⟩
    rw [List.flatMap_cons, List.foldlM_append, foldlM_add_section (deep s List.mem_cons_self), first]
    exact last

/-- The statements of a table that is written. -/
def statementsOf (fields : List (String × Document)) : List Statement :=
  (directPairs fields).map (fun (name, d) => .pair [] name d) ++
    (sectionsOfFields [] fields).flatMap Section.statements

theorem assemble_statementsOf {fields : List (String × Document)} (distinct : Distinct fields)
    (each : ∀ f ∈ fields, Orderly 1 f.2) :
    assemble (statementsOf fields) = some (.table (arrangedFields fields)) := by
  obtain ⟨items, documents, all⟩ := exists_fields .header nofun distinct
    fun f mem => adds_of_orderly (each f mem)
  rw [all_append, Option.bind_eq_some_iff] at all
  obtain ⟨direct, first, later⟩ := all
  have pairs : ((directPairs fields).map fun (name, d) => Statement.pair [] name d).foldlM Draft.add
      ⟨[], []⟩ = some ⟨direct, []⟩ := by
    rw [foldlM_add_pairs]
    exact congrArg (Option.map _) first
  obtain ⟨current, sections⟩ := foldlM_add_sections (fun s mem => path_ne_nil mem)
    ⟨direct, []⟩ later
  rw [assemble, statementsOf, List.foldlM_append, pairs]
  simp only [Option.bind_eq_bind, Option.bind_some, sections, documents]
  rfl

end Autoscaler.Toml
