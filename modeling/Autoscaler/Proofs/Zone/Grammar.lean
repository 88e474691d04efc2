import Autoscaler.Proofs.Zone.Text

/-!
# The grammar of zone sets

A text is cut at its commas, in the one way in which it can be (`pieces_eq_iff`). It is read when no
piece is blank, and refused as empty or for a blank piece else. What is read are the names of the
pieces: neither their order nor how often they stand there nor the blanks around them can be told
from the zone set, nor from its text, which lists them in ascending order (`parse_canonical`).
-/

namespace Autoscaler

namespace Text

variable {name written : String}

/-- A name with nothing but blank characters before and after it. -/
def Pads (name written : String) : Prop :=
  ∃ before after, isBlankText before = true ∧ isBlankText after = true ∧
    written = before ++ name ++ after

theorem isBlankText_iff {s : String} : isBlankText s = true ↔ ∀ c ∈ s.toList, isBlank c = true :=
  List.all_eq_true

/-- Blank characters around a word are lost, with those that it has at its own ends. -/
theorem trimmed_pad {before cs after : List Char} (front : ∀ c ∈ before, isBlank c = true)
    (back : ∀ c ∈ after, isBlank c = true) : trimmed (before ++ cs ++ after) = trimmed cs := by
  have lost : after.dropWhile isBlank = [] := List.dropWhile_eq_nil_iff.mpr back
  have lostReverse : ∀ c ∈ after.reverse, isBlank c = true := by simpa using back
  rw [trimmed, trimmed, List.append_assoc, List.dropWhile_append_of_pos front, List.dropWhile_append]
  split
  · rename_i none
    rw [lost, List.isEmpty_iff.mp none]
  · rw [List.reverse_append, List.dropWhile_append_of_pos lostReverse]

theorem exists_pad (cs : List Char) : ∃ before after, (∀ c ∈ before, isBlank c = true) ∧
    (∀ c ∈ after, isBlank c = true) ∧ cs = before ++ trimmed cs ++ after := by
  have front : cs.takeWhile isBlank ++ cs.dropWhile isBlank = cs := List.takeWhile_append_dropWhile
  have back : (cs.dropWhile isBlank).reverse.takeWhile isBlank ++
      (cs.dropWhile isBlank).reverse.dropWhile isBlank = (cs.dropWhile isBlank).reverse :=
    List.takeWhile_append_dropWhile
  refine ⟨cs.takeWhile isBlank, ((cs.dropWhile isBlank).reverse.takeWhile isBlank).reverse, ?_, ?_, ?_⟩
  · intro c mem
    exact List.mem_takeWhile_imp mem
  · intro c mem
    exact List.mem_takeWhile_imp (List.mem_reverse.mp mem)
  · rw [trimmed, List.append_assoc, ← List.reverse_append, back, List.reverse_reverse, front]

theorem trim_of_pads (pads : Pads name written) : trim written = trim name := by
  obtain ⟨before, after, front, back, rfl⟩ := pads
  rw [trim, trim, String.toList_append, String.toList_append,
    trimmed_pad (isBlankText_iff.mp front) (isBlankText_iff.mp back)]

theorem pads_trim (s : String) : Pads (trim s) s := by
  obtain ⟨before, after, front, back, whole⟩ := exists_pad s.toList
  refine ⟨.ofList before, .ofList after, ?_, ?_, ?_⟩
  · rwa [isBlankText_iff, String.toList_ofList]
  · rwa [isBlankText_iff, String.toList_ofList]
  · rw [← String.toList_inj, trim]
    simpa using whole

end Text

namespace ZoneSet

variable {s t : String} {z o : ZoneSet} {words : List String}

/-! ## Where a text is cut -/

theorem intercalate_pieces (s : String) : ",".intercalate (pieces s) = s := by
  have same : (s.toList.splitOn ',').map (String.toList ∘ String.ofList) = s.toList.splitOn ',' := by
    simp [Function.comp_def]
  rw [← String.toList_inj, String.toList_intercalate, pieces, List.map_map, same]
  exact List.intercalate_splitOn ','

theorem pieces_eq_iff : pieces s = words ↔
    words ≠ [] ∧ (∀ w ∈ words, ',' ∉ w.toList) ∧ ",".intercalate words = s := by
  constructor
  · rintro rfl
    exact ⟨pieces_ne_nil s, fun _ piece => comma_not_mem_piece piece, intercalate_pieces s⟩
  · rintro ⟨any, plain, rfl⟩
    exact pieces_intercalate any plain

/-! ## What is read and what is refused -/

theorem exists_parse_eq_ok : (∃ z, parse s = .ok z) ↔ ∀ p ∈ pieces s, Text.trim p ≠ "" := by
  constructor
  · rintro ⟨z, read⟩
    exact (parse_eq_ok.mp read).1
  · intro named
    exact ⟨ofPieces (pieces s) (pieces_ne_nil s) named, parse_eq_ok.mpr ⟨named, fun _ => mem_ofPieces⟩⟩

theorem parse_eq_empty : parse s = .error .empty ↔ Text.trim s = "" := by
  unfold parse
  split
  · rename_i blank
    simp [blank]
  · rename_i some
    split <;> simp [some]

/-- A text that is not blank is refused, if at all, for a blank piece, and as it was written. -/
theorem parse_eq_blankZone {written : String} : parse s = .error (.blankZone written) ↔
    written = s ∧ Text.trim s ≠ "" ∧ ∃ p ∈ pieces s, Text.trim p = "" := by
  unfold parse
  split
  · rename_i blank
    simp [blank]
  · rename_i some
    split
    · rename_i named
      simpa [some] using fun _ => named
    · rename_i unnamed
      simp only [not_forall, not_not] at unnamed
      obtain ⟨p, piece, blank⟩ := unnamed
      constructor
      · intro refused
        cases refused
        exact ⟨rfl, some, p, piece, blank⟩
      · rintro ⟨rfl, -, -⟩
        rfl

theorem eq_iff_of_parse (read : parse s = .ok z) (readOther : parse t = .ok o) : z = o ↔
    ∀ zone, (∃ p ∈ pieces s, Text.trim p = zone) ↔ ∃ p ∈ pieces t, Text.trim p = zone := by
  rw [ZoneSet.ext_iff]
  refine forall_congr' fun zone => ?_
  rw [(parse_eq_ok.mp read).2, (parse_eq_ok.mp readOther).2]

/-! ## One text for every spelling -/

theorem ascending_zones (z : ZoneSet) : z.zones.Pairwise (· < ·) := by
  have ordered : z.zones.Pairwise (compare · · = .lt) := Std.ExtTreeSet.ordered_toList
  exact ordered.imp fun earlier => compareOfLessAndEq_eq_lt.mp earlier

/-- Words that name the zones of a set, each of them at least once and nothing else, with any blanks
around the names. -/
structure Spells (z : ZoneSet) (words : List String) : Prop where
  named : ∀ w ∈ words, ∃ zone ∈ z, Text.Pads zone w
  all : ∀ zone ∈ z, ∃ w ∈ words, Text.Pads zone w

theorem trim_eq_of_pads {zone w : String} (mem : zone ∈ z) (pads : Text.Pads zone w) :
    Text.trim w = zone := by
  rw [Text.trim_of_pads pads, (z.name_mem zone mem).1]

theorem Spells.ne_nil (spells : z.Spells words) : words ≠ [] := by
  obtain ⟨zone, rest, listed⟩ := List.exists_cons_of_ne_nil (zones_ne_nil z)
  have mem : zone ∈ z := mem_zones.mp (listed ▸ List.mem_cons_self)
  obtain ⟨w, written, -⟩ := spells.all zone mem
  exact List.ne_nil_of_mem written

theorem Spells.comma_not_mem (spells : z.Spells words) (plain : z.IsPlain) :
    ∀ w ∈ words, ',' ∉ w.toList := by
  intro w written
  obtain ⟨zone, mem, pads⟩ := spells.named w written
  rw [← Text.comma_mem_trim, trim_eq_of_pads mem pads]
  exact plain zone mem

/-- What is read from a text is the set that its pieces spell. -/
theorem parse_eq_ok_iff_spells : parse s = .ok z ↔ z.Spells (pieces s) := by
  constructor
  · intro read
    have names := (parse_eq_ok.mp read).2
    constructor
    · intro p piece
      exact ⟨Text.trim p, (names _).mpr ⟨p, piece, rfl⟩, Text.pads_trim p⟩
    · intro zone mem
      obtain ⟨p, piece, rfl⟩ := (names zone).mp mem
      exact ⟨p, piece, Text.pads_trim p⟩
  · intro spells
    rw [ZoneSet.parse_eq_ok]
    constructor
    · intro p piece
      obtain ⟨zone, mem, pads⟩ := spells.named p piece
      rw [trim_eq_of_pads mem pads]
      exact (z.name_mem zone mem).2
    · intro zone
      constructor
      · intro mem
        obtain ⟨p, piece, pads⟩ := spells.all zone mem
        exact ⟨p, piece, trim_eq_of_pads mem pads⟩
      · rintro ⟨p, piece, rfl⟩
        obtain ⟨zone, mem, pads⟩ := spells.named p piece
        rwa [trim_eq_of_pads mem pads]

/-- However the zones of a set are spelled, they are read as that set. -/
theorem Spells.parse_eq_ok (spells : z.Spells words) (plain : z.IsPlain) :
    parse (",".intercalate words) = .ok z := by
  rw [parse_eq_ok_iff_spells, pieces_intercalate spells.ne_nil (spells.comma_not_mem plain)]
  exact spells

/-- A text is read exactly when none of its pieces between commas is blank, and refused as empty when
all of it is blank and for a blank piece else. Two texts that are read give the same set exactly when
their pieces have the same names. The text of a set that was read lists these names in ascending
order, and whatever else spells them is read as the same set and so has the same text. -/
theorem parse_canonical (s t : String) (z o : ZoneSet) (words : List String) :
    (pieces s = words ↔
      words ≠ [] ∧ (∀ w ∈ words, ',' ∉ w.toList) ∧ ",".intercalate words = s) ∧
    ((∃ z, parse s = .ok z) ↔ ∀ p ∈ pieces s, Text.trim p ≠ "") ∧
    (parse s = .error .empty ↔ Text.trim s = "") ∧
    (∀ written, parse s = .error (.blankZone written) ↔
      written = s ∧ Text.trim s ≠ "" ∧ ∃ p ∈ pieces s, Text.trim p = "") ∧
    (parse s = .ok z → parse t = .ok o → (z = o ↔
      ∀ zone, (∃ p ∈ pieces s, Text.trim p = zone) ↔ ∃ p ∈ pieces t, Text.trim p = zone)) ∧
    (parse s = .ok z → (pieces z.text).Pairwise (· < ·) ∧
      ∀ zone, zone ∈ pieces z.text ↔ ∃ p ∈ pieces s, Text.trim p = zone) ∧
    (parse s = .ok z → z.Spells words → parse (",".intercalate words) = .ok z) := by
  refine ⟨pieces_eq_iff, exists_parse_eq_ok, parse_eq_empty, fun _ => parse_eq_blankZone,
    eq_iff_of_parse, ?_, fun read spells => spells.parse_eq_ok (isPlain_of_parse read)⟩
  intro read
  rw [pieces_text (isPlain_of_parse read)]
  refine ⟨ascending_zones z, fun zone => ?_⟩
  rw [mem_zones, (parse_eq_ok.mp read).2]

/-- Two regions out of order, one of them again, and all of them with blanks of another kind. -/
theorem parse_canonical_regions :
    let regions : ZoneSet := ofPieces ["us-east-1a", "us-east-1b"] (by decide) (by decide)
    let words := ["us-east-1b\t", " us-east-1a", "us-east-1b"]
    parse " us-east-1b ,us-east-1a" = .ok regions ∧
      parse "us-east-1a,us-east-1b,us-east-1a" = .ok regions ∧ regions.Spells words ∧
      (∀ zone, (∃ p ∈ pieces " us-east-1b ,us-east-1a", Text.trim p = zone) ↔
        ∃ p ∈ pieces "us-east-1a,us-east-1b,us-east-1a", Text.trim p = zone) ∧
      (pieces regions.text).Pairwise (· < ·) ∧ regions.text = "us-east-1a,us-east-1b" ∧
      parse (",".intercalate words) = .ok regions := by
  intro regions words
  have cut : pieces " us-east-1b ,us-east-1a" = [" us-east-1b ", "us-east-1a"] := by decide +kernel
  have first : Text.trim "us-east-1a" = "us-east-1a" := by decide
  have second : Text.trim "us-east-1b" = "us-east-1b" := by decide
  have spaced : Text.trim " us-east-1b " = "us-east-1b" := by decide
  have mem : ∀ zone, zone ∈ regions ↔ "us-east-1a" = zone ∨ "us-east-1b" = zone := by
    intro zone
    simp [regions, mem_ofPieces, first, second]
  have read : parse " us-east-1b ,us-east-1a" = .ok regions := by
    rw [ZoneSet.parse_eq_ok, cut]
    refine ⟨by decide, fun zone => ?_⟩
    simp [mem, first, spaced, or_comm]
  have again : parse "us-east-1a,us-east-1b,us-east-1a" = .ok regions := by decide +kernel
  have padsFirst : Text.Pads "us-east-1a" " us-east-1a" := ⟨" ", "", by decide, by decide, by decide⟩
  have padsTab : Text.Pads "us-east-1b" "us-east-1b\t" := ⟨"", "\t", by decide, by decide, by decide⟩
  have padsNone : Text.Pads "us-east-1b" "us-east-1b" := ⟨"", "", by decide, by decide, by decide⟩
  have spells : regions.Spells words := by
    constructor
    · intro w written
      simp only [words, List.mem_cons, List.not_mem_nil, or_false] at written
      rcases written with rfl | rfl | rfl
      · exact ⟨_, (mem _).mpr (.inr rfl), padsTab⟩
      · exact ⟨_, (mem _).mpr (.inl rfl), padsFirst⟩
      · exact ⟨_, (mem _).mpr (.inr rfl), padsNone⟩
    · intro zone named
      rcases (mem zone).mp named with rfl | rfl
      · exact ⟨_, by simp [words], padsFirst⟩
      · exact ⟨_, by simp [words], padsNone⟩
  obtain ⟨-, -, -, -, same, listed, respelled⟩ := parse_canonical " us-east-1b ,us-east-1a"
    "us-east-1a,us-east-1b,us-east-1a" regions regions words
  exact ⟨read, again, spells, (same read again).mp rfl, (listed read).1, by decide +kernel,
    respelled read spells⟩

/-- Nothing between two commas is a blank piece, while a lone comma has two of them. -/
example : parse "a,,b" = .error (.blankZone "a,,b") ∧ parse "," = .error (.blankZone ",") ∧
    parse " \t" = .error .empty := by decide +kernel

end ZoneSet

end Autoscaler
