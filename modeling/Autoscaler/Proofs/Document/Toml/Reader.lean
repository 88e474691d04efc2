import Autoscaler.Proofs.Document.Toml.Assembly

/-!
# Written TOML read back

A line that is written reads as the statement that it was written for, whatever lines come after it
(`reads_pair`, `reads_header`). The fuel of the readers is the length of what is left, and each line
pays for its own steps. A table that is written therefore reads as its statements (`reads_write`), and
these build up the table again (`read?_write`).
-/

namespace Autoscaler.Toml

/-! ## Keys -/

/-- A character that a key or a header begins with. -/
def isOpening (c : Char) : Bool := isBare c || isQuote c || c == '['

theorem ne_of_kind {p : Char → Bool} {c d : Char} (kind : p c = true) (other : p d = false) : c ≠ d := by
  rintro rfl
  simp [kind] at other

/-- A key begins with a character of its own or with a quote. -/
theorem exists_writeKey (s : String) : ∃ c more, (writeKey s).toList = c :: more ∧
    (isBare c = true ∨ isQuote c = true) := by
  simp only [writeKey]
  split
  · rename_i bare
    obtain ⟨c, more, written⟩ := List.exists_cons_of_ne_nil bare.1
    have all := bare.2
    rw [written, List.all_cons, Bool.and_eq_true] at all
    exact ⟨c, more, written, .inl all.1⟩
  · split
    · exact ⟨'\'', _, by simp [writeAs]; rfl, .inr rfl⟩
    · exact ⟨'"', _, by simp [writeAs]; rfl, .inr rfl⟩

theorem name_of_quote {c : Char} (quote : isQuote c = true) {rest : List Char} {s : String}
    {after : List Char} (read : shortText (c :: rest) = some (s.toList, after)) :
    name (c :: rest) = some (s, after) := by
  have kind : c = '"' ∨ c = '\'' := by simpa [isQuote] using quote
  simp [name, if_pos kind, read]

/-- A key reads back before anything that no key without quotes goes on with. -/
theorem name_writeKey (s : String) {rest : List Char} (stops : Stops isBare rest) :
    name ((writeKey s).toList ++ rest) = some (s, rest) := by
  simp only [writeKey]
  split
  · rename_i bare
    have inside : ∀ c ∈ s.toList, isBare c = true := by simpa using bare.2
    have text := takeWhile_append inside stops
    have after := dropWhile_append inside stops
    obtain ⟨c, more, written⟩ := List.exists_cons_of_ne_nil bare.1
    have first := inside c (by simp [written])
    have quote : ¬ (c = '"' ∨ c = '\'') := by
      rintro (rfl | rfl) <;> cases first
    rw [written] at text after bare ⊢
    rw [List.cons_append] at text after ⊢
    simp only [name, if_neg quote, text, after, if_neg bare.1]
    simp [← written]
  · split
    · rename_i form
      have read := shortText_literal (plain_of_literal form) rest
      have begins : (writeAs .literal s.toList).toList ++ rest =
          '\'' :: (s.toList ++ '\'' :: rest) := by simp [writeAs]
      rw [begins] at read ⊢
      exact name_of_quote rfl read
    · have read := shortText_basic s.toList rest
      have begins : (writeAs .basic s.toList).toList ++ rest =
          '"' :: (escapedText false 0 s.toList ++ '"' :: rest) := by simp [writeAs]
      rw [begins] at read ⊢
      exact name_of_quote rfl read

theorem skipSpace_of_stops {cs : List Char} (stops : Stops isSpace cs) : skipSpace cs = cs := by
  have empty : ∀ c ∈ ([] : List Char), isSpace c = true := nofun
  exact dropWhile_append empty stops

/-- What no key begins with does not go on before one. -/
theorem stops_writeKey {p : Char → Bool} (s : String) (rest : List Char)
    (bare : ∀ c, isBare c = true → p c = false) (quote : ∀ c, isQuote c = true → p c = false) :
    Stops p ((writeKey s).toList ++ rest) := by
  obtain ⟨c, more, written, kind⟩ := exists_writeKey s
  rw [written]
  exact stops_cons (kind.elim (bare c) (quote c))

theorem isSpace_of_isBare (c : Char) (bare : isBare c = true) : isSpace c = false := by
  have space := ne_of_kind (d := ' ') bare rfl
  have tab := ne_of_kind (d := '\t') bare rfl
  simp [isSpace, space, tab]

theorem isSpace_of_isQuote (c : Char) (quote : isQuote c = true) : isSpace c = false := by
  simp only [isQuote, Bool.or_eq_true, beq_iff_eq] at quote
  rcases quote with rfl | rfl <;> rfl

theorem skipSpace_writeKey (s : String) (rest : List Char) :
    skipSpace ((writeKey s).toList ++ rest) = (writeKey s).toList ++ rest :=
  skipSpace_of_stops (stops_writeKey s rest isSpace_of_isBare isSpace_of_isQuote)

theorem names_single (s : String) {rest after : List Char} (stops : Stops isBare rest)
    (skipped : skipSpace rest = after) (last : ∀ more, after ≠ '.' :: more) (fuel : Nat) :
    names (fuel + 1) ((writeKey s).toList ++ rest) = some ([], s, after) := by
  simp only [names, skipSpace_writeKey, name_writeKey s stops, skipped, Option.bind_eq_bind,
    Option.bind_some]
  rfl

/-- Names with points between them, up to a bracket. -/
theorem names_path {path : List String} (some : path ≠ []) {fuel : Nat} (enough : path.length ≤ fuel)
    (rest : List Char) :
    names fuel ((".".intercalate (path.map writeKey)).toList ++ ']' :: rest) =
      .some (path.dropLast, path.getLastD "", ']' :: rest) := by
  induction path generalizing fuel with
  | nil => exact absurd rfl some
  | cons s path ih =>
    obtain ⟨fuel, rfl⟩ : ∃ f, fuel = f + 1 := ⟨fuel - 1, by simp only [List.length_cons] at enough; omega⟩
    cases path with
    | nil =>
      have stops : Stops isBare (']' :: rest) := stops_cons rfl
      simp only [List.map_cons, List.map_nil, String.intercalate_singleton]
      exact names_single s stops rfl nofun fuel
    | cons t path =>
      have later := ih (List.cons_ne_nil t path) (show _ ≤ fuel by simpa using enough)
      have stops : Stops isBare ('.' :: ((".".intercalate ((t :: path).map writeKey)).toList ++
          ']' :: rest)) := stops_cons rfl
      have written : (".".intercalate ((s :: t :: path).map writeKey)).toList ++ ']' :: rest =
          (writeKey s).toList ++ '.' :: ((".".intercalate ((t :: path).map writeKey)).toList ++
            ']' :: rest) := by
        simp [String.intercalate_cons_cons]
      rw [written]
      simp only [names, skipSpace_writeKey, name_writeKey s stops, Option.bind_eq_bind,
        Option.bind_some]
      have point : skipSpace ('.' :: ((".".intercalate ((t :: path).map writeKey)).toList ++
          ']' :: rest)) = '.' :: ((".".intercalate ((t :: path).map writeKey)).toList ++ ']' :: rest) :=
        rfl
      rw [point]
      simp only [later, Option.bind_some]
      rfl

theorem key_path {path : List String} (some : path ≠ []) (shallow : path.length < depthLimit)
    {fuel : Nat} (enough : path.length ≤ fuel) (rest : List Char) :
    key fuel ((".".intercalate (path.map writeKey)).toList ++ ']' :: rest) =
      .some (path.dropLast, path.getLastD "", ']' :: rest) := by
  have names : path.dropLast.length + 1 < depthLimit := by
    have positive := List.length_pos_of_ne_nil some
    rw [List.length_dropLast]
    omega
  rw [key, names_path some enough, Option.filter, if_pos (by simpa using names)]

/-- The key of a line. -/
theorem key_equals (s : String) (rest : List Char) (fuel : Nat) :
    key (fuel + 1) ((writeKey s).toList ++ ' ' :: '=' :: rest) = some ([], s, '=' :: rest) := by
  have stops : Stops isBare (' ' :: '=' :: rest) := stops_cons rfl
  rw [key, names_single s stops rfl nofun]
  rfl

/-! ## Values -/

section
variable {d : Document} {rest : List Char}

theorem exists_writeText (s : String) :
    ∃ c more, (writeText s).toList = c :: more ∧ isQuote c = true := by
  rw [writeText]
  cases formOf s.toList with
  | basic => exact ⟨'"', _, by simp [writeAs]; rfl, rfl⟩
  | literal => exact ⟨'\'', _, by simp [writeAs]; rfl, rfl⟩
  | longBasic => exact ⟨'"', _, by simp [writeAs, toList_longOpening]; rfl, rfl⟩
  | longLiteral => exact ⟨'\'', _, by simp [writeAs, toList_longOpening]; rfl, rfl⟩

theorem IsScalar.exists_valueText (single : IsScalar d) :
    ∃ c more, (valueText d).toList = c :: more ∧ isScalarChar c = true := by
  obtain ⟨run, read⟩ := single.reads
  cases written : (valueText d).toList with
  | nil =>
    rw [written] at read
    cases read
  | cons c more =>
    rw [written] at run
    exact ⟨c, more, rfl, run c List.mem_cons_self⟩

/-- A value on one line reads back before whatever may come after it. -/
theorem value_item (single : IsItem d) (closed : Closed rest) (depth fuel : Nat) :
    value depth (fuel + 1) ((valueText d).toList ++ rest) = some (d, rest) := by
  rcases single with scalar | ⟨s, rfl⟩
  · obtain ⟨c, more, written, run⟩ := scalar.exists_valueText
    have read := readScalar_append closed scalar.reads.1 scalar.reads.2
    have other : ¬ (c = '"' ∨ c = '\'') ∧ c ≠ '[' ∧ c ≠ '\x7b' := by
      refine ⟨?_, ?_, ?_⟩
      · rintro (rfl | rfl) <;> cases run
      · rintro rfl
        cases run
      · rintro rfl
        cases run
    rw [written, List.cons_append] at read ⊢
    simp only [value, if_neg other.1, if_neg other.2.1, if_neg other.2.2, read]
  · obtain ⟨c, more, written, quote⟩ := exists_writeText s
    have read := anyText_writeText (closed.stops (p := isQuote) rfl) s
    have kind : c = '"' ∨ c = '\'' := by simpa [isQuote] using quote
    rw [valueText]
    rw [written, List.cons_append] at read ⊢
    simp [value, if_pos kind, read]

/-- What an item of a list begins with is no blank, line break or comment. -/
theorem skipGap_item (single : IsItem d) (rest : List Char) :
    skipGap false ((valueText d).toList ++ rest) = some ((valueText d).toList ++ rest) ∧
      ∀ more, (valueText d).toList ++ rest ≠ ']' :: more := by
  obtain ⟨c, more, written, other⟩ : ∃ c more, (valueText d).toList = c :: more ∧
      c ∉ ['\n', '\r', ' ', '\t', '#', ']'] := by
    rcases single with scalar | ⟨s, rfl⟩
    · obtain ⟨c, more, written, run⟩ := scalar.exists_valueText
      refine ⟨c, more, written, fun mem => ?_⟩
      have apart : ['\n', '\r', ' ', '\t', '#', ']'].any isScalarChar = false := rfl
      exact absurd run (List.any_eq_false.mp apart c mem)
    · obtain ⟨c, more, written, quote⟩ := exists_writeText s
      refine ⟨c, more, by rw [valueText, written], fun mem => ?_⟩
      have apart : ['\n', '\r', ' ', '\t', '#', ']'].any isQuote = false := rfl
      exact absurd quote (List.any_eq_false.mp apart c mem)
  simp only [List.mem_cons, List.not_mem_nil, or_false, not_or] at other
  obtain ⟨newline, turn, blank, tab, comment, bracket⟩ := other
  rw [written, List.cons_append]
  refine ⟨?_, ?_⟩
  · rw [skipGap]
    · simp [isSpace, blank, tab, comment]
    · simp [turn]
    · simp [newline]
  · rintro after same
    exact bracket (List.cons.inj same).1

theorem itemTexts_eq (items : List Document) : itemTexts items = items.map valueText := by
  induction items with
  | nil => rfl
  | cons d rest ih => rw [itemTexts, ih, List.map_cons]

/-- The lines of the items of a list. -/
def itemLines (items : List Document) : List Char :=
  items.flatMap fun d => '\n' :: ' ' :: ' ' :: ' ' :: ' ' :: (valueText d).toList ++ [',']

theorem items_comma (single : IsItem d) {gap after : List Char} {others : List Document}
    {depth fuel : Nat} (skipped : skipGap false gap = some ((valueText d).toList ++ ',' :: rest))
    (later : items depth (fuel + 1) rest = some (others, after)) :
    items depth (fuel + 2) gap = some (d :: others, after) := by
  have read := value_item single (show Closed (',' :: rest) from ⟨_, _, rfl, .inr (.inl rfl)⟩) depth fuel
  obtain ⟨-, other⟩ := skipGap_item single (',' :: rest)
  have comma : skipGap false (',' :: rest) = some (',' :: rest) := rfl
  rw [items]
  simp only [skipped, Option.bind_eq_bind, Option.bind_some, read, comma, later]
  rfl

theorem items_bracket (single : IsItem d) {gap : List Char} {depth fuel : Nat}
    (skipped : skipGap false gap = some ((valueText d).toList ++ ']' :: rest)) :
    items depth (fuel + 2) gap = some ([d], rest) := by
  have read := value_item single (show Closed (']' :: rest) from ⟨_, _, rfl, .inr (.inr rfl)⟩) depth fuel
  obtain ⟨-, other⟩ := skipGap_item single (']' :: rest)
  have bracket : skipGap false (']' :: rest) = some (']' :: rest) := rfl
  rw [items]
  simp only [skipped, Option.bind_eq_bind, Option.bind_some, read, bracket]
  rfl

theorem items_lines {list : List Document} (all : ∀ i ∈ list, IsItem i) {fuel : Nat}
    (enough : list.length < fuel) (depth : Nat) :
    items depth fuel (itemLines list ++ '\n' :: ']' :: rest) = some (list, rest) := by
  induction list generalizing fuel with
  | nil =>
    obtain ⟨fuel, rfl⟩ : ∃ f, fuel = f + 1 := ⟨fuel - 1, by omega⟩
    rfl
  | cons d list ih =>
    rw [List.length_cons] at enough
    obtain ⟨fuel, rfl⟩ : ∃ f, fuel = f + 2 := ⟨fuel - 2, by omega⟩
    have later := ih (fun i mem => all i (List.mem_cons_of_mem d mem)) (show _ < fuel + 1 by omega)
    have first := all d List.mem_cons_self
    refine items_comma first ?_ later
    have written : itemLines (d :: list) ++ '\n' :: ']' :: rest = '\n' :: ' ' :: ' ' :: ' ' :: ' ' ::
        ((valueText d).toList ++ ',' :: (itemLines list ++ '\n' :: ']' :: rest)) := by
      simp [itemLines]
    rw [written]
    exact (skipGap_item first _).1

/-- The three ways in which a list is written. -/
theorem valueText_list (list : List Document) : (valueText (.list list)).toList =
    match list with
    | [] => ['[', ']']
    | [d] => '[' :: ((valueText d).toList ++ [']'])
    | several => '[' :: (itemLines several ++ ['\n', ']']) := by
  rw [valueText, itemTexts_eq]
  rcases list with _ | ⟨d, _ | ⟨e, list⟩⟩
  · rfl
  · simp
  · simp [itemLines, String.toList_join, List.flatMap_map]

theorem length_le_itemLines (list : List Document) : list.length ≤ (itemLines list).length := by
  induction list with
  | nil => exact Nat.le_refl 0
  | cons d rest ih =>
    have split : itemLines (d :: rest) =
        '\n' :: ' ' :: ' ' :: ' ' :: ' ' :: ((valueText d).toList ++ [',']) ++ itemLines rest := rfl
    rw [split, List.length_append, List.length_cons, List.length_cons]
    omega

theorem value_list {list : List Document} {inside : List Char} {fuel : Nat}
    (read : items 1 fuel inside = some (list, rest)) :
    value 0 (fuel + 1) ('[' :: inside) = some (.list list, rest) := by
  have shallow : ¬ depthLimit ≤ 0 + 1 := by decide
  simp only [value, if_neg shallow, read]
  rfl

/-- A value after an equals sign reads back. -/
theorem value_plain (plain : Plain d) (closed : Closed rest) {fuel : Nat}
    (enough : (valueText d).toList.length < fuel) :
    value 0 fuel ((valueText d).toList ++ rest) = some (d, rest) := by
  cases plain with
  | item single =>
    obtain ⟨fuel, rfl⟩ : ∃ f, fuel = f + 1 := ⟨fuel - 1, by omega⟩
    exact value_item single closed 0 fuel
  | @list list all =>
    rw [valueText_list] at enough ⊢
    rcases list with _ | ⟨d, _ | ⟨e, list⟩⟩
    · obtain ⟨fuel, rfl⟩ : ∃ f, fuel = f + 2 := ⟨fuel - 2, by simp at enough; omega⟩
      exact value_list rfl
    · obtain ⟨fuel, rfl⟩ : ∃ f, fuel = f + 3 := ⟨fuel - 3, by simp at enough; omega⟩
      have single := all d List.mem_cons_self
      have inside : (valueText d).toList ++ [']'] ++ rest = (valueText d).toList ++ ']' :: rest := by
        simp
      refine value_list (items_bracket single ?_)
      exact (congrArg (skipGap false) inside).trans (skipGap_item single _).1
    · have length := length_le_itemLines (d :: e :: list)
      obtain ⟨fuel, rfl⟩ : ∃ f, fuel = f + 1 := ⟨fuel - 1, by omega⟩
      have inside : itemLines (d :: e :: list) ++ ['\n', ']'] ++ rest =
          itemLines (d :: e :: list) ++ '\n' :: ']' :: rest := by simp
      refine value_list ((congrArg (items 1 fuel) inside).trans (items_lines all ?_ 1))
      simp only [List.length_cons, List.length_append] at enough length ⊢
      omega

/-- No value begins with a blank. -/
theorem skipSpace_valueText (plain : Plain d) :
    skipSpace ((valueText d).toList ++ rest) = (valueText d).toList ++ rest := by
  refine skipSpace_of_stops ?_
  cases plain with
  | item single =>
    rcases single with scalar | ⟨s, rfl⟩
    · obtain ⟨c, more, written, run⟩ := scalar.exists_valueText
      rw [written]
      refine stops_cons ?_
      by_contra space
      simp only [isSpace, Bool.not_eq_false, Bool.or_eq_true, beq_iff_eq] at space
      rcases space with rfl | rfl <;> cases run
    · obtain ⟨c, more, written, quote⟩ := exists_writeText s
      rw [valueText, written]
      exact stops_cons (isSpace_of_isQuote c quote)
  | @list list all =>
    rw [valueText_list]
    rcases list with _ | ⟨d, _ | ⟨e, list⟩⟩ <;> exact stops_cons rfl

end

/-! ## Lines -/

/-- Characters that are left to read stand for statements, with the fuel that comes with them. -/
def Reads (cs : List Char) (sts : List Statement) : Prop :=
  ∀ fuel, cs.length < fuel → statements fuel cs = some sts

section
variable {cs : List Char} {sts : List Statement}

theorem reads_nil : Reads [] [] := by
  intro fuel enough
  obtain ⟨fuel, rfl⟩ : ∃ f, fuel = f + 1 := ⟨fuel - 1, by omega⟩
  rfl

theorem reads_empty_line (later : Reads cs sts) : Reads ('\n' :: cs) sts := by
  intro fuel enough
  rw [List.length_cons] at enough
  obtain ⟨fuel, rfl⟩ : ∃ f, fuel = f + 1 := ⟨fuel - 1, by omega⟩
  have after := later fuel (by omega)
  have ended : lineEnd? ('\n' :: cs) = some cs := rfl
  rw [statements, ended]
  cases cs with
  | nil =>
    obtain ⟨fuel, rfl⟩ : ∃ f, fuel = f + 1 := ⟨fuel - 1, by simp at enough; omega⟩
    exact after
  | cons c cs => exact after

theorem isOpening_of_bare_or_quote {c : Char} (kind : isBare c = true ∨ isQuote c = true) :
    isOpening c = true := by
  rcases kind with bare | quote
  · simp [isOpening, bare]
  · simp [isOpening, quote]

/-- A line that begins with a key or a header is not empty. -/
theorem lineEnd?_of_isOpening {c : Char} (opening : isOpening c = true) (rest : List Char) :
    skipSpace (c :: rest) = c :: rest ∧ lineEnd? (c :: rest) = none := by
  have blank := ne_of_kind (d := ' ') opening rfl
  have tab := ne_of_kind (d := '\t') opening rfl
  have comment := ne_of_kind (d := '#') opening rfl
  have newline := ne_of_kind (d := '\n') opening rfl
  have turn := ne_of_kind (d := '\r') opening rfl
  have skipped : skipSpace (c :: rest) = c :: rest :=
    skipSpace_of_stops (stops_cons (by simp [isSpace, blank, tab]))
  refine ⟨skipped, ?_⟩
  simp [lineEnd?, skipped, comment, newline, turn]

/-- A line that reads as a statement comes before the others. -/
theorem reads_line {line : List Char} {st : Statement}
    (begins : ∃ c more, line = c :: more ∧ isOpening c = true)
    (read : ∀ fuel, line.length ≤ fuel → statement fuel (line ++ cs) = some (st, cs))
    (later : Reads cs sts) : Reads (line ++ cs) (st :: sts) := by
  obtain ⟨c, more, rfl, opening⟩ := begins
  intro fuel enough
  rw [List.length_append, List.length_cons] at enough
  obtain ⟨fuel, rfl⟩ : ∃ f, fuel = f + 1 := ⟨fuel - 1, by omega⟩
  have first := read fuel (by rw [List.length_cons]; omega)
  have after := later fuel (by omega)
  obtain ⟨skipped, going⟩ := lineEnd?_of_isOpening opening (more ++ cs)
  rw [List.cons_append] at first ⊢
  simp only [statements, going, skipped, first, after, Option.bind_eq_bind, Option.bind_some]
  rfl

theorem statement_pair {fuel : Nat} {name : String} {d : Document} {rest inside : List Char}
    (plain : ∀ more, inside ≠ '[' :: more) (named : key fuel inside = some ([], name, '=' :: rest))
    (read : value 0 fuel (skipSpace rest) = some (d, '\n' :: cs)) :
    statement fuel inside = some (.pair [] name d, cs) := by
  have ended : lineEnd? ('\n' :: cs) = some cs := rfl
  unfold statement
  split
  · rename_i more
    exact absurd rfl (plain _)
  · rename_i more
    exact absurd rfl (plain _)
  · simp only [named, expect?, if_true, Option.bind_eq_bind, Option.bind_some, read, ended]
    rfl

/-- The line of a key and a value reads as the pair. -/
theorem reads_pair (name : String) {d : Document} (plain : Plain d) (later : Reads cs sts) :
    Reads ((writeKey name ++ " = " ++ valueText d ++ "\n").toList ++ cs) (.pair [] name d :: sts) := by
  obtain ⟨c, more, written, kind⟩ := exists_writeKey name
  have opening := isOpening_of_bare_or_quote kind
  refine reads_line ⟨c, _, by simp [written]; rfl, opening⟩ ?_ later
  intro fuel enough
  have line : (writeKey name ++ " = " ++ valueText d ++ "\n").toList ++ cs =
      (writeKey name).toList ++ ' ' :: '=' :: ' ' :: ((valueText d).toList ++ '\n' :: cs) := by
    simp
  have length : (valueText d).toList.length < fuel := by
    simp only [String.toList_append, List.length_append] at enough
    have tail : " = ".toList.length = 3 := rfl
    omega
  obtain ⟨fuel, rfl⟩ : ∃ f, fuel = f + 1 := ⟨fuel - 1, by omega⟩
  rw [line]
  refine statement_pair ?_ (key_equals name _ fuel) ?_
  · intro rest same
    rw [written] at same
    have bracket : isBare '[' = false ∧ isQuote '[' = false := ⟨rfl, rfl⟩
    rw [(List.cons.inj same).1] at kind
    simp [bracket] at kind
  · have spaced : skipSpace (' ' :: ((valueText d).toList ++ '\n' :: cs)) =
        skipSpace ((valueText d).toList ++ '\n' :: cs) := rfl
    rw [spaced, skipSpace_valueText plain]
    exact value_plain plain ⟨_, _, rfl, .inl rfl⟩ length

theorem pairTexts_eq (pairs : List (String × Document)) :
    pairTexts pairs = pairs.map fun (name, d) => writeKey name ++ " = " ++ valueText d := by
  induction pairs with
  | nil => rfl
  | cons f rest ih => rw [pairTexts, ih, List.map_cons]

theorem reads_pairLines {pairs : List (String × Document)} (plain : ∀ f ∈ pairs, Plain f.2)
    (later : Reads cs sts) : Reads ((pairLines pairs).toList ++ cs)
      (pairs.map (fun (name, d) => .pair [] name d) ++ sts) := by
  induction pairs with
  | nil => exact later
  | cons f rest ih =>
    have others := ih fun g mem => plain g (List.mem_cons_of_mem f mem)
    have split : (pairLines (f :: rest)).toList ++ cs =
        (writeKey f.1 ++ " = " ++ valueText f.2 ++ "\n").toList ++ ((pairLines rest).toList ++ cs) := by
      simp [pairLines, pairTexts_eq, String.join_cons]
    rw [split]
    exact reads_pair f.1 (plain f List.mem_cons_self) others

/-! ## Headers -/

theorem exists_path {path : List String} (some : path ≠ []) : ∃ c more,
    (".".intercalate (path.map writeKey)).toList = c :: more ∧
      (isBare c = true ∨ isQuote c = true) := by
  cases path with
  | nil => exact absurd rfl some
  | cons s path =>
    obtain ⟨c, more, written, kind⟩ := exists_writeKey s
    cases path with
    | nil => exact ⟨c, more, by simpa using written, kind⟩
    | cons t path => exact ⟨c, _, by simp [String.intercalate_cons_cons, written]; rfl, kind⟩

/-- A path has no more names than characters. -/
theorem length_le_path (path : List String) :
    path.length ≤ (".".intercalate (path.map writeKey)).toList.length := by
  induction path with
  | nil => exact Nat.zero_le _
  | cons s path ih =>
    obtain ⟨c, more, written, -⟩ := exists_writeKey s
    cases path with
    | nil => simp [written]
    | cons t path =>
      simp only [List.map_cons, String.intercalate_cons_cons, String.toList_append, List.length_append,
        written, List.length_cons] at ih ⊢
      omega

theorem statement_element {fuel : Nat} {path : List String} {name : String} {inside : List Char}
    (named : key fuel inside = some (path, name, ']' :: ']' :: '\n' :: cs)) :
    statement fuel ('[' :: '[' :: inside) = some (.element path name, cs) := by
  have ended : lineEnd? ('\n' :: cs) = some cs := rfl
  simp only [statement, named, expect?, if_true, Option.bind_eq_bind, Option.bind_some, ended]
  rfl

theorem statement_header {fuel : Nat} {path : List String} {name : String} {inside : List Char}
    (single : ∀ more, inside ≠ '[' :: more)
    (named : key fuel inside = some (path, name, ']' :: '\n' :: cs)) :
    statement fuel ('[' :: inside) = some (.header path name, cs) := by
  have ended : lineEnd? ('\n' :: cs) = some cs := rfl
  simp only [statement, named, expect?, if_true, Option.bind_eq_bind, Option.bind_some, ended]
  rfl

/-- The header of a section reads as the statement that opens its table. -/
theorem reads_header {s : Section} (deep : s.path ≠ []) (shallow : s.path.length < depthLimit)
    (later : Reads cs sts) : Reads (s.header.toList ++ cs) (s.opening :: sts) := by
  have length := length_le_path s.path
  by_cases element : s.isElement = true
  · have header : s.header.toList = '[' :: '[' ::
        ((".".intercalate (s.path.map writeKey)).toList ++ [']', ']', '\n']) := by
      simp [Section.header, element]
    refine reads_line ⟨'[', _, header, rfl⟩ ?_ later
    intro fuel enough
    rw [header, List.length_cons, List.length_cons, List.length_append] at enough
    have named := key_path deep shallow (show _ ≤ fuel by omega) (']' :: '\n' :: cs)
    have line : s.header.toList ++ cs = '[' :: '[' ::
        ((".".intercalate (s.path.map writeKey)).toList ++ ']' :: ']' :: '\n' :: cs) := by
      simp [header]
    rw [line, Section.opening, if_pos element]
    exact statement_element named
  · have header : s.header.toList = '[' ::
        ((".".intercalate (s.path.map writeKey)).toList ++ [']', '\n']) := by
      simp [Section.header, element]
    refine reads_line ⟨'[', _, header, rfl⟩ ?_ later
    intro fuel enough
    rw [header, List.length_cons, List.length_append] at enough
    have named := key_path deep shallow (show _ ≤ fuel by omega) ('\n' :: cs)
    have line : s.header.toList ++ cs = '[' ::
        ((".".intercalate (s.path.map writeKey)).toList ++ ']' :: '\n' :: cs) := by
      simp [header]
    rw [line, Section.opening, if_neg element]
    refine statement_header ?_ named
    intro more same
    obtain ⟨c, after, written, kind⟩ := exists_path deep
    rw [written] at same
    rw [(List.cons.inj same).1] at kind
    rcases kind with bare | quote
    · cases bare
    · cases quote

/-! ## Sections -/

/-- A section whose path can be read and whose values have a line of their own. -/
structure Section.Readable (s : Section) : Prop where
  deep : s.path ≠ []
  shallow : s.path.length < depthLimit
  plain : ∀ f ∈ s.pairs, Plain f.2

theorem reads_section {s : Section} (readable : s.Readable) (later : Reads cs sts) :
    Reads (s.text.toList ++ cs) (s.statements ++ sts) := by
  have pairs := reads_pairLines readable.plain later
  have header := reads_header readable.deep readable.shallow pairs
  have split : s.text.toList ++ cs = s.header.toList ++ ((pairLines s.pairs).toList ++ cs) := by
    simp [Section.text]
  rw [split]
  exact header

end

/-- Sections with empty lines between them. -/
theorem reads_sections {sections : List Section} (readable : ∀ s ∈ sections, s.Readable) :
    Reads ("\n".intercalate (sections.map Section.text)).toList
      (sections.flatMap Section.statements) := by
  induction sections with
  | nil => exact reads_nil
  | cons s rest ih =>
    have later := ih fun t mem => readable t (List.mem_cons_of_mem s mem)
    have first := readable s List.mem_cons_self
    cases rest with
    | nil =>
      have alone := reads_section first reads_nil
      simpa using alone
    | cons t rest =>
      have both := reads_section first (reads_empty_line later)
      rw [List.flatMap_cons]
      simpa [String.intercalate_cons_cons] using both

theorem mem_sectionsOfFields {path : List String} {fields : List (String × Document)} {s : Section}
    (mem : s ∈ sectionsOfFields path fields) : ∃ f ∈ fields, s ∈ sectionsOf (path ++ [f.1]) f.2 := by
  induction fields with
  | nil => cases mem
  | cons f rest ih =>
    rcases List.mem_append.mp mem with first | later
    · exact ⟨f, List.mem_cons_self, first⟩
    · obtain ⟨g, listed, inside⟩ := ih later
      exact ⟨g, List.mem_cons_of_mem f listed, inside⟩

theorem mem_sectionsOfItems {path : List String} {items : List Document} {s : Section}
    (mem : s ∈ sectionsOfItems path items) : ∃ fields, .table fields ∈ items ∧
      (s = ⟨path, true, directPairs fields⟩ ∨ s ∈ sectionsOfFields path fields) := by
  induction items with
  | nil => cases mem
  | cons i rest ih =>
    have later : s ∈ sectionsOfItems path rest → ∃ fields, .table fields ∈ i :: rest ∧
        (s = ⟨path, true, directPairs fields⟩ ∨ s ∈ sectionsOfFields path fields) := by
      intro mem
      obtain ⟨fields, listed, inside⟩ := ih mem
      exact ⟨fields, List.mem_cons_of_mem i listed, inside⟩
    cases i with
    | table fields =>
      rcases List.mem_append.mp mem with first | others
      · exact ⟨fields, List.mem_cons_self, List.mem_cons.mp first⟩
      · exact later others
    | _ => exact later mem

theorem plain_of_mem_directPairs {n : Nat} {fields : List (String × Document)}
    (each : ∀ f ∈ fields, Orderly n f.2) : ∀ f ∈ directPairs fields, Plain f.2 := by
  intro f mem
  obtain ⟨listed, direct⟩ := List.mem_filter.mp mem
  exact (each f listed).plain_of_direct (by simpa using direct)

/-- All sections of an orderly document can be read. -/
theorem readable_of_orderly {n : Nat} {d : Document} (orderly : Orderly n d) {path : List String}
    (length : path.length = n) (deep : path ≠ []) : ∀ s ∈ sectionsOf path d, s.Readable := by
  induction orderly generalizing path with
  | plain plain =>
    intro s mem
    rw [sectionsOf_of_direct plain.isSectioned_eq_false] at mem
    cases mem
  | @table n fields shallow _ each ih =>
    intro s mem
    have inner : ∀ s ∈ sectionsOfFields path fields, s.Readable := by
      intro s mem
      obtain ⟨f, listed, inside⟩ := mem_sectionsOfFields mem
      exact ih f listed (by simp [length]) (by simp) s inside
    rw [sectionsOf] at mem
    split at mem
    · rcases List.mem_cons.mp mem with rfl | later
      · exact ⟨deep, length ▸ shallow, plain_of_mem_directPairs each⟩
      · exact inner s later
    · exact inner s mem
  | @tables n items shallow sectioned _ each ih =>
    intro s mem
    have tables : sectionsOf path (.list items) = sectionsOfItems path items := by
      rw [sectionsOf, if_pos]
      exact sectioned
    rw [tables] at mem
    obtain ⟨fields, table, rfl | inside⟩ := mem_sectionsOfItems mem
    · exact ⟨deep, length ▸ shallow, plain_of_mem_directPairs (each fields table)⟩
    · obtain ⟨f, listed, inside⟩ := mem_sectionsOfFields inside
      exact ih fields table f listed (by simp [length]) (by simp) s inside

/-! ## Tables -/

section
variable {fields : List (String × Document)} (each : ∀ f ∈ fields, Orderly 1 f.2)
include each

theorem readable_of_mem_sections : ∀ s ∈ sectionsOfFields [] fields, s.Readable := by
  intro s mem
  obtain ⟨f, listed, inside⟩ := mem_sectionsOfFields mem
  exact readable_of_orderly (each f listed) rfl (by simp) s inside

/-- A table that is written reads as its statements. -/
theorem reads_write : Reads (write fields).toList (statementsOf fields) := by
  have plain := plain_of_mem_directPairs each
  have sections := reads_sections (readable_of_mem_sections each)
  simp only [write, statementsOf]
  by_cases none : directPairs fields = []
  · simpa [none] using sections
  · cases written : sectionsOfFields [] fields with
    | nil =>
      have alone := reads_pairLines plain reads_nil
      simpa [none] using alone
    | cons s rest =>
      rw [written] at sections
      have both := reads_pairLines plain (reads_empty_line sections)
      simpa [none, String.intercalate_cons_cons] using both

end

/-- No line begins with a byte order mark. -/
theorem not_reads_mark (rest : List Char) (sts : List Statement) : ¬ Reads ('\ufeff' :: rest) sts := by
  intro reads
  have read := reads (rest.length + 3) (by simp)
  have skipped : skipSpace ('\ufeff' :: rest) = '\ufeff' :: rest := rfl
  have going : lineEnd? ('\ufeff' :: rest) = none := rfl
  have unnamed : name ('\ufeff' :: rest) = none := rfl
  have keyless : key (rest.length + 2) ('\ufeff' :: rest) = none := by
    simp [key, names, skipped, unnamed]
  simp [statements, going, skipped, statement, keyless] at read

theorem read?_of_reads {s : String} {sts : List Statement} (reads : Reads s.toList sts) :
    read? s = assemble sts := by
  unfold read?
  split
  · rename_i rest marked
    rw [marked] at reads
    exact absurd reads (not_reads_mark rest sts)
  · simp [reads _ (Nat.lt_succ_self _)]

/-- The text of a table reads back as the table, the fields in the order in which they are written. -/
theorem read?_write {fields : List (String × Document)} (distinct : Distinct fields)
    (each : ∀ f ∈ fields, Orderly 1 f.2) :
    read? (write fields) = some (.table (arrangedFields fields)) := by
  rw [read?_of_reads (reads_write each)]
  exact assemble_statementsOf distinct each

end Autoscaler.Toml
