import Autoscaler.Capacity.Lemmas
import Autoscaler.Document.Quantity
import Autoscaler.Proofs.Traversal
import Mathlib.Data.List.TakeWhile

/-!
# Texts of zone sets

A comma stands between zones, and nothing in the text of a zone set tells it from a comma in the name
of a zone. A text is therefore read back as the zone set that it was written for exactly when no zone
has a comma in its name (`parse_text_eq_ok`). Zone sets that were read have no such zones, and those
made from names have them when the names do. An allocation is written as a table under the texts of
its zone sets, and comes back when none of them has such a zone (`ofDocument?_toDocument_iff`).
-/

namespace Autoscaler

namespace Text

variable {cs : List Char} {c : Char}

/-- Only blank characters are lost. -/
theorem mem_trimmed (kept : isBlank c = false) : c ∈ trimmed cs ↔ c ∈ cs := by
  have dropped : ∀ cs : List Char, c ∈ cs.dropWhile isBlank ↔ c ∈ cs := by
    intro cs
    constructor
    · intro mem
      exact List.dropWhile_subset isBlank mem
    · intro mem
      rw [← List.takeWhile_append_dropWhile (p := isBlank) (l := cs), List.mem_append] at mem
      rcases mem with lost | mem
      · have blank := List.mem_takeWhile_imp lost
        simp [kept] at blank
      · exact mem
  rw [trimmed, List.mem_reverse, dropped, List.mem_reverse, dropped]

theorem trimmed_eq_nil : trimmed cs = [] ↔ ∀ c ∈ cs, isBlank c = true := by
  constructor
  · intro none c mem
    by_contra kept
    rw [← mem_trimmed (by simpa using kept), none] at mem
    cases mem
  · intro blank
    have front : cs.dropWhile isBlank = [] := List.dropWhile_eq_nil_iff.mpr blank
    simp [trimmed, front]

theorem trim_eq_empty {s : String} : trim s = "" ↔ ∀ c ∈ s.toList, isBlank c = true := by
  rw [← trimmed_eq_nil, trim, ← String.toList_inj, String.toList_ofList]
  rfl

theorem comma_mem_trim {s : String} : ',' ∈ (trim s).toList ↔ ',' ∈ s.toList := by
  rw [trim, String.toList_ofList]
  exact mem_trimmed (by decide)

end Text

namespace ZoneSet

/-- No zone has a comma in its name. -/
def IsPlain (z : ZoneSet) : Prop := ∀ zone ∈ z, ',' ∉ zone.toList

variable {z : ZoneSet} {s : String}

/-! ## Pieces -/

theorem not_mem_of_mem_splitOn {a : Char} {cs word : List Char} (mem : word ∈ cs.splitOn a) :
    a ∉ word := by
  induction cs generalizing word with
  | nil =>
    have none : word = [] := by simpa using mem
    simp [none]
  | cons c rest ih =>
    rw [List.splitOn_cons_eq_if_modifyHead] at mem
    split at mem
    · rcases List.mem_cons.mp mem with rfl | later
      · simp
      · exact ih later
    · rename_i other
      cases words : rest.splitOn a with
      | nil => simp [words] at mem
      | cons first others =>
        rw [words] at mem ih
        rcases List.mem_cons.mp mem with rfl | later
        · have apart := ih List.mem_cons_self
          have different : c ≠ a := by simpa using other
          simp [apart, Ne.symm different]
        · exact ih (List.mem_cons_of_mem first later)

theorem comma_not_mem_piece {p : String} (piece : p ∈ pieces s) : ',' ∉ p.toList := by
  obtain ⟨word, split, rfl⟩ := List.mem_map.mp piece
  rw [String.toList_ofList]
  exact not_mem_of_mem_splitOn split

theorem pieces_of_blank (blank : Text.trim s = "") : pieces s = [s] := by
  have single : ',' ∉ s.toList := by
    intro mem
    have none := Text.trim_eq_empty.mp blank ',' mem
    exact absurd none (by decide)
  simp [pieces, List.splitOn_eq_singleton single]

theorem zones_ne_nil (z : ZoneSet) : z.zones ≠ [] := by
  intro none
  exact z.names_ne_empty (Std.ExtTreeSet.toList_eq_nil_iff.mp none)

/-- The words between commas are the pieces of the text that is made of them. -/
theorem pieces_intercalate {words : List String} (any : words ≠ [])
    (plain : ∀ w ∈ words, ',' ∉ w.toList) : pieces (",".intercalate words) = words := by
  have apart : ∀ word ∈ words.map String.toList, ',' ∉ word := List.forall_mem_map.mpr plain
  have some : words.map String.toList ≠ [] := by simpa using any
  have written : (",".intercalate words).toList = [','].intercalate (words.map String.toList) :=
    String.toList_intercalate
  rw [pieces, written, List.splitOn_intercalate ',' apart some, List.map_map]
  simp [Function.comp_def]

theorem pieces_text (plain : z.IsPlain) : pieces z.text = z.zones :=
  pieces_intercalate (zones_ne_nil z) fun zone listed => plain zone (mem_zones.mp listed)

/-! ## Reading and making zone sets -/

theorem eq_ofPieces_iff {pieces : List String} {any named} : ofPieces pieces any named = z ↔
    ∀ zone, zone ∈ z ↔ ∃ p ∈ pieces, Text.trim p = zone := by
  rw [ZoneSet.ext_iff]
  simp only [mem_ofPieces]
  exact forall_congr' fun zone => Iff.comm

/-- A text is read when none of its pieces is blank, as the set of the pieces without the blanks at
their ends. -/
theorem parse_eq_ok : parse s = .ok z ↔ (∀ p ∈ pieces s, Text.trim p ≠ "") ∧
    ∀ zone, zone ∈ z ↔ ∃ p ∈ pieces s, Text.trim p = zone := by
  rw [parse]
  split
  · rename_i blank
    simp [pieces_of_blank blank, blank]
  · split
    · rename_i named
      rw [Except.ok.injEq, eq_ofPieces_iff]
      exact ⟨fun same => ⟨named, same⟩, fun read => read.2⟩
    · rename_i unnamed
      simp [unnamed]

theorem ofNames_eq_ok {names : List String} : ofNames names = .ok z ↔ names ≠ [] ∧
    (∀ n ∈ names, Text.trim n ≠ "") ∧ ∀ zone, zone ∈ z ↔ ∃ n ∈ names, Text.trim n = zone := by
  rw [ofNames]
  split
  · rename_i none
    simp [none]
  · rename_i any
    split
    · rename_i named
      rw [Except.ok.injEq, eq_ofPieces_iff]
      exact ⟨fun same => ⟨any, named, same⟩, fun made => made.2.2⟩
    · rename_i unnamed
      simp [unnamed]

/-! ## Plain zone sets -/

theorem isPlain_of_parse (read : parse s = .ok z) : z.IsPlain := by
  intro zone mem
  obtain ⟨p, piece, rfl⟩ := ((parse_eq_ok.mp read).2 zone).mp mem
  rw [Text.comma_mem_trim]
  exact comma_not_mem_piece piece

theorem isPlain_iff_of_ofNames {names : List String} (made : ofNames names = .ok z) :
    z.IsPlain ↔ ∀ n ∈ names, ',' ∉ n.toList := by
  obtain ⟨-, -, same⟩ := ofNames_eq_ok.mp made
  constructor
  · intro plain n listed
    rw [← Text.comma_mem_trim]
    exact plain _ ((same _).mpr ⟨n, listed, rfl⟩)
  · intro plain zone mem
    obtain ⟨n, listed, rfl⟩ := (same zone).mp mem
    rw [Text.comma_mem_trim]
    exact plain n listed

theorem parse_text_eq_ok : parse z.text = .ok z ↔ z.IsPlain := by
  constructor
  · exact isPlain_of_parse
  · intro plain
    rw [parse_eq_ok, pieces_text plain]
    constructor
    · intro zone listed
      obtain ⟨trimmed, some⟩ := z.name_mem zone (mem_zones.mp listed)
      rwa [trimmed]
    · intro zone
      constructor
      · intro mem
        exact ⟨zone, mem_zones.mpr mem, (z.name_mem zone mem).1⟩
      · rintro ⟨other, listed, rfl⟩
        have mem := mem_zones.mp listed
        rwa [(z.name_mem other mem).1]

theorem eq_of_text_eq {other : ZoneSet} (plain : z.IsPlain) (otherPlain : other.IsPlain)
    (same : z.text = other.text) : z = other := by
  have read := parse_text_eq_ok.mpr plain
  rw [same, parse_text_eq_ok.mpr otherPlain] at read
  exact (Except.ok.inj read).symm

theorem ofText?_eq_some : ofText? s = some z ↔ parse s = .ok z := by
  rw [ofText?]
  cases parse s <;> simp [Except.toOption]

end ZoneSet

/-! ## Tables under texts -/

/-- A table of values that can be read has their entries. -/
theorem Document.tableOf?_map {α β : Type} {read : Document → Option β} {xs : List α}
    {name : α → String} {write : α → Document} {value : α → β}
    (readable : ∀ x ∈ xs, read (write x) = some (value x)) :
    (Document.table (xs.map fun x => (name x, write x))).tableOf? read =
      some (xs.map fun x => (name x, value x)) := by
  show (xs.map fun x => (name x, write x)).mapM _ = _
  rw [mapM_eq_some, List.forall₂_map_left_iff, List.forall₂_map_right_iff, List.forall₂_same]
  intro x listed
  simp [readable x listed]

/-- The last entry of a key in the list of a map is its only one. -/
theorem find?_reverse_toList {α β : Type} [Ord α] [Std.TransOrd α] [Std.LawfulEqOrd α]
    [DecidableEq α] (m : Std.ExtTreeMap α β) (k : α) :
    (m.toList.reverse.find? (·.1 = k)).map Prod.snd = m[k]? := by
  cases last : m.toList.reverse.find? (·.1 = k) with
  | none =>
    rw [Option.map_none, eq_comm, Option.eq_none_iff_forall_ne_some]
    intro v found
    have listed := Std.ExtTreeMap.mem_toList_iff_getElem?_eq_some.mpr found
    have apart := List.find?_eq_none.mp last (k, v) (List.mem_reverse.mpr listed)
    simp at apart
  | some e =>
    have key : e.1 = k := by simpa using List.find?_some last
    have listed := List.mem_reverse.mp (List.mem_of_find?_eq_some last)
    rw [Option.map_some, ← key, Std.ExtTreeMap.mem_toList_iff_getElem?_eq_some.mp listed]

theorem Capacity.ofEntries_toList (c : Capacity) : ofEntries c.toList = c := by
  ext d
  have last : ((c.toList.reverse.find? (·.1 = d)).map Prod.snd).getD 0 = c.get d := by
    rw [toList, find?_reverse_toList, get_eq]
  have kept := c.get_le d
  rw [ofEntries, get_ofFn, last]
  by_cases listed : d ∈ c.toList.map Prod.fst
  · rw [if_pos listed]
    omega
  · rw [toList, Std.ExtTreeMap.map_fst_toList_eq_keys] at listed
    have none := mt mem_dimensions.mpr listed
    rw [if_neg (by simpa [toList] using listed)]
    omega

theorem Capacity.ofDocument?_toDocument (c : Capacity) : ofDocument? c.toDocument = some c := by
  have amounts : ∀ e ∈ c.toList, (Document.integer e.2).natural? = some e.2 := by
    intro e listed
    have found := Std.ExtTreeMap.mem_toList_iff_getElem?_eq_some.mp listed
    have kept := (c.amount_mem e.1 e.2 found).2
    have fits : (e.2 : Int) < wordLimit := by
      rw [maxAmount] at kept
      have positive : 0 < wordLimit := by decide
      omega
    simp [Document.natural?, fits]
  rw [ofDocument?, toDocument, Document.tableOf?_map amounts, Option.map_some]
  simp [ofEntries_toList]

namespace Allocation

variable {a : Allocation}

theorem ofList_toList (a : Allocation) : ofList a.toList = a := by
  ext1 z
  rw [get?_ofList, toList, find?_reverse_toList]
  rfl

/-- An allocation is read back by reading the texts of its zone sets. -/
theorem ofDocument?_toDocument (a : Allocation) : ofDocument? a.toDocument =
    (a.toList.mapM fun e => (ZoneSet.ofText? e.1.text).map fun z => (z, e.2)).map ofList := by
  have capacities : ∀ e ∈ a.toList, Capacity.ofDocument? e.2.toDocument = some e.2 :=
    fun e _ => e.2.ofDocument?_toDocument
  rw [ofDocument?, toDocument, Document.tableOf?_map capacities, Option.bind_eq_bind,
    Option.bind_some, List.mapM_map, Option.map_eq_bind]
  rfl

theorem ofDocument?_toDocument_iff :
    ofDocument? a.toDocument = some a ↔ ∀ z c, a.get? z = some c → z.IsPlain := by
  rw [ofDocument?_toDocument, Option.map_eq_some_iff]
  constructor
  · rintro ⟨entries, read, same⟩ z c found
    rw [← same, get?_ofList, Option.map_eq_some_iff] at found
    obtain ⟨e, last, -⟩ := found
    have key : e.1 = z := by simpa using List.find?_some last
    have listed := List.mem_reverse.mp (List.mem_of_find?_eq_some last)
    -- Whatever was read has the zone set of some text.
    obtain ⟨written, -, item⟩ := exists_mem_of_forall₂ (mapM_eq_some.mp read) listed
    obtain ⟨o, named, rfl⟩ := Option.map_eq_some_iff.mp item
    rw [← key]
    exact ZoneSet.isPlain_of_parse (ZoneSet.ofText?_eq_some.mp named)
  · intro plain
    refine ⟨a.toList, ?_, ofList_toList a⟩
    rw [mapM_eq_some, List.forall₂_same]
    rintro ⟨z, c⟩ listed
    have read := ZoneSet.parse_text_eq_ok.mpr (plain z c (mem_toList.mp listed))
    simp [ZoneSet.ofText?_eq_some.mpr read]

/-- The texts of plain zone sets are as different as the zone sets. -/
theorem nodup_texts (plain : ∀ z c, a.get? z = some c → z.IsPlain) :
    (a.toList.map fun e => e.1.text).Nodup := by
  rw [List.nodup_iff_pairwise_ne, List.pairwise_map]
  refine Std.ExtTreeMap.distinct_keys_toList.imp_of_mem ?_
  rintro ⟨z, c⟩ ⟨o, e⟩ first second apart same
  refine apart ?_
  rw [Std.LawfulEqCmp.compare_eq_iff_eq]
  exact ZoneSet.eq_of_text_eq (plain z c (mem_toList.mp first)) (plain o e (mem_toList.mp second)) same

end Allocation

/-! ## Faithful texts -/

namespace ZoneSet

/-- A text gives its zone set back exactly when no zone has a comma in its name. This is so of every
zone set that was read, and of one made from names when they have no commas. Such zone sets have
different texts when they are different, and an allocation comes back from its table, entry by entry,
exactly when all its zone sets are of this kind. -/
theorem text_faithful_iff (z other : ZoneSet) (s : String) (names : List String) (a : Allocation) :
    (parse z.text = .ok z ↔ z.IsPlain) ∧
    (parse s = .ok z → z.IsPlain) ∧
    (ofNames names = .ok z → (z.IsPlain ↔ ∀ n ∈ names, ',' ∉ n.toList)) ∧
    (z.IsPlain → other.IsPlain → z.text = other.text → z = other) ∧
    (((∃ fields, a.toDocument = .table fields ∧ (fields.map Prod.fst).Nodup) ∧
      Allocation.ofDocument? a.toDocument = some a) ↔ ∀ o c, a.get? o = some c → o.IsPlain) := by
  refine ⟨parse_text_eq_ok, isPlain_of_parse, isPlain_iff_of_ofNames, eq_of_text_eq, ?_⟩
  constructor
  · rintro ⟨-, back⟩
    exact Allocation.ofDocument?_toDocument_iff.mp back
  · intro plain
    refine ⟨⟨_, rfl, ?_⟩, Allocation.ofDocument?_toDocument_iff.mpr plain⟩
    rw [List.map_map]
    exact Allocation.nodup_texts plain

/-- Two regions, named in a text and as names, beside a workload that is not divided. -/
theorem text_faithful_iff_regions :
    let regions : ZoneSet := ofPieces ["us-east-1a", "us-east-1b"] (by decide) (by decide)
    let names := ["us-east-1a ", "us-east-1b"]
    let a : Allocation := .ofList [(regions, .single "memory" 10)]
    parse " us-east-1a ,us-east-1b,us-east-1a" = .ok regions ∧ ofNames names = .ok regions ∧
      (∀ n ∈ names, ',' ∉ n.toList) ∧ parse regions.text = .ok regions ∧
      regions.text ≠ whole.text ∧ Allocation.ofDocument? a.toDocument = some a := by
  intro regions names a
  have read : parse " us-east-1a ,us-east-1b,us-east-1a" = .ok regions := by decide +kernel
  have made : ofNames names = .ok regions := by decide +kernel
  have named : ∀ n ∈ names, ',' ∉ n.toList := by decide
  obtain ⟨back, ofRead, ofMade, apart, tables⟩ :=
    text_faithful_iff regions whole " us-east-1a ,us-east-1b,us-east-1a" names a
  have plain : regions.IsPlain := ofRead read
  have wholePlain : whole.IsPlain :=
    (isPlain_iff_of_ofNames (show ofNames ["default"] = .ok whole from rfl)).mpr (by decide)
  refine ⟨read, made, named, back.mpr ((ofMade made).mpr named), ?_, (tables.mpr ?_).2⟩
  · intro same
    exact absurd (apart plain wholePlain same) (by decide +kernel)
  · intro o c found
    rw [Allocation.get?_ofList] at found
    by_cases same : regions = o
    · exact same ▸ plain
    · simp [same] at found

/-- A zone whose name is a list of two has the text of two zones. Its text does not give it back, and
in a table it takes the place of the two. -/
theorem comma_unfaithful :
    let joined : ZoneSet := ofPieces ["a,b"] (by decide) (by decide)
    let two : ZoneSet := ofPieces ["a", "b"] (by decide) (by decide)
    let a : Allocation := .ofList [(joined, .single "memory" 10), (two, .single "memory" 20)]
    ofNames ["a,b"] = .ok joined ∧ joined ≠ two ∧ joined.text = two.text ∧
      parse joined.text = .ok two ∧
      Allocation.ofDocument? a.toDocument = some (.ofList [(two, .single "memory" 10)]) := by
  decide +kernel

end ZoneSet

end Autoscaler
