import Autoscaler.Document.Toml.Text
import Mathlib.Tactic.SplitIfs

/-!
# Texts in TOML read back

A text reads back in whichever of the four forms it is written (`anyText_writeText`). What a long text
may hold is settled by the quotes in a row: three close it, and up to two before them belong to it
(`closing_append`).
-/

namespace Autoscaler.Toml

open Text (Scanned hexValue? hexFour)

/-- A run of characters of a kind does not go on here. -/
def Stops (p : Char → Bool) (rest : List Char) : Prop := ∀ c ∈ rest.head?, p c = false

section
variable {p : Char → Bool} {body rest : List Char}

theorem stops_cons {c : Char} (other : p c = false) : Stops p (c :: rest) := by
  intro d first
  cases first
  exact other

theorem takeWhile_append (inside : ∀ c ∈ body, p c = true) (stops : Stops p rest) :
    (body ++ rest).takeWhile p = body := by
  rw [List.takeWhile_append_of_pos inside]
  cases rest with
  | nil => simp
  | cons c rest => simp [stops c rfl]

theorem dropWhile_append (inside : ∀ c ∈ body, p c = true) (stops : Stops p rest) :
    (body ++ rest).dropWhile p = rest := by
  rw [List.dropWhile_append_of_pos inside]
  cases rest with
  | nil => rfl
  | cons c rest => simp [stops c rfl]

end

/-! ## Escapes -/

theorem hexFour_eq {n : Nat} (small : n < 128) :
    (hexFour n).map Char.toUpper =
      ['0', '0', (Nat.digitChar (n / 16)).toUpper, (Nat.digitChar (n % 16)).toUpper] := by
  have all : ∀ n < 128, (hexFour n).map Char.toUpper =
      ['0', '0', (Nat.digitChar (n / 16)).toUpper, (Nat.digitChar (n % 16)).toUpper] := by decide
  exact all n small

theorem hexValue?_digitChar {n : Nat} (small : n < 16) :
    hexValue? (Nat.digitChar n).toUpper = some n := by
  have all : ∀ n < 16, hexValue? (Nat.digitChar n).toUpper = some n := by decide
  exact all n small

theorem scalar?_toNat (c : Char) : scalar? c.toNat = some c := by
  have valid : c.toNat.isValidChar := c.valid
  rw [scalar?, if_pos valid, Char.ofNat_toNat]

theorem small_of_needsEscape {c : Char} (coded : needsEscape c = true) : c.toNat < 128 := by
  simp only [needsEscape, isPlain, Bool.and_eq_true, bne_iff_ne, Bool.not_eq_true', Bool.or_eq_false_iff,
    Bool.and_eq_false_iff, decide_eq_false_iff_not, bne_eq_false_iff_eq] at coded
  obtain ⟨-, -, control | delete⟩ := coded
  · omega
  · omega

/-- A reader of texts with escapes, as far as escapes go. -/
structure ReadsEscapes (go : Place → List Char → Scanned) : Prop where
  backslash (rest : List Char) : go .plain ('\\' :: rest) = go .escape rest
  letter {c : Char} (rest : List Char) : c ∈ ['b', 't', 'n', 'f', 'r', 'u', '"', '\\'] →
    go .escape (c :: rest) = stepThen (afterEscape c) fun place => go place rest
  digit (more value : Nat) (c : Char) (rest : List Char) :
    go (.digits more value) (c :: rest) = stepThen (afterDigit more value c) fun place => go place rest
  plain {c : Char} (rest : List Char) : isPlain c = true → c ≠ '"' → c ≠ '\\' →
    go .plain (c :: rest) = .cons c (go .plain rest)

namespace ReadsEscapes

variable {go : Place → List Char → Scanned} (reads : ReadsEscapes go)
include reads

theorem escaped {c letter : Char} (known : letter ∈ ['b', 't', 'n', 'f', 'r', 'u', '"', '\\'])
    (stands : escape? letter = some c) (rest : List Char) :
    go .plain ('\\' :: letter :: rest) = .cons c (go .plain rest) := by
  have short : letter ≠ 'u' ∧ letter ≠ 'U' := by
    constructor <;> rintro rfl <;> cases stands
  have step : afterEscape letter = some (some c, .plain) := by
    rw [afterEscape, if_neg short.1, if_neg short.2, stands]
    rfl
  rw [reads.backslash, reads.letter rest known, step]
  rfl

theorem coded {c : Char} (small : c.toNat < 128) (rest : List Char) :
    go .plain ('\\' :: 'u' :: (hexFour c.toNat).map Char.toUpper ++ rest) = .cons c (go .plain rest) := by
  have zero : hexValue? '0' = some 0 := rfl
  have high := hexValue?_digitChar (n := c.toNat / 16) (by omega)
  have low := hexValue?_digitChar (n := c.toNat % 16) (by omega)
  have value : c.toNat / 16 * 16 + c.toNat % 16 = c.toNat := by omega
  rw [hexFour_eq small]
  simp only [List.cons_append, List.nil_append]
  rw [reads.backslash, reads.letter _ (by decide)]
  have letter : afterEscape 'u' = some (none, .digits 4 0) := rfl
  simp only [letter, stepThen]
  simp [reads.digit, stepThen, afterDigit, zero, high, low, value, scalar?_toNat]

theorem escapedChar {c : Char} (long : Bool) (other : c ≠ '"') (inLine : long = true → c ≠ '\n')
    (rest : List Char) :
    go .plain (Toml.escapedChar long c ++ rest) = .cons c (go .plain rest) := by
  rw [Toml.escapedChar]
  split_ifs with backspace tab newline wide feed return' slash coded
  · subst backspace
    exact reads.escaped (by decide) rfl rest
  · subst tab
    exact reads.escaped (by decide) rfl rest
  · exact absurd newline (inLine wide)
  · subst newline
    exact reads.escaped (by decide) rfl rest
  · subst feed
    exact reads.escaped (by decide) rfl rest
  · subst return'
    exact reads.escaped (by decide) rfl rest
  · subst slash
    exact reads.escaped (by decide) rfl rest
  · exact reads.coded (small_of_needsEscape coded) rest
  · have plain : isPlain c = true := by simpa [needsEscape, newline] using coded
    exact reads.plain rest plain other slash

end ReadsEscapes

theorem closing_of_ne {q c : Char} (other : c ≠ q) (rest : List Char) : closing q (c :: rest) = none := by
  rcases rest with _ | ⟨a, _ | ⟨b, rest⟩⟩ <;> simp [closing, other]

theorem readsEscapes_basicTail : ReadsEscapes basicTail where
  backslash rest := by simp [basicTail]
  letter rest listed := by rw [basicTail]
  digit more value c rest := by rw [basicTail]
  plain rest plain quote slash := by simp [basicTail, plain, quote, slash]

theorem readsEscapes_longBasicTail : ReadsEscapes longBasicTail where
  backslash rest := by
    rw [longBasicTail]
    simp [closing_of_ne]
  letter {c} rest listed := by
    have other : isSpace c = false ∧ c ≠ '\n' ∧ c ≠ '\r' := by
      have all : ['b', 't', 'n', 'f', 'r', 'u', '"', '\\'].all
          (fun c => !isSpace c && c != '\n' && c != '\r') = true := rfl
      simpa [and_assoc] using List.all_eq_true.mp all c listed
    rw [longBasicTail]
    simp [other]
  digit more value c rest := by
    rw [longBasicTail]
  plain {c} rest plain quote slash := by
    have inLine : c ≠ '\r' := by
      rintro rfl
      exact absurd plain (by decide)
    rw [longBasicTail]
    simp [closing_of_ne quote, plain, slash, inLine]

/-! ## Forms of texts -/

theorem basicTail_escapedText (run : Nat) (cs rest : List Char) :
    basicTail .plain (escapedText false run cs ++ '"' :: rest) = some (cs, rest) := by
  induction cs generalizing run with
  | nil => simp [escapedText, basicTail]
  | cons c cs ih =>
    rw [escapedText]
    by_cases quote : c = '"'
    · subst quote
      simp only [if_true, Bool.false_eq_true, false_and, if_false, List.cons_append]
      rw [readsEscapes_basicTail.escaped (by decide) rfl, ih]
      rfl
    · rw [if_neg quote, List.append_assoc, readsEscapes_basicTail.escapedChar false quote nofun, ih]
      rfl

theorem literalTail_append {cs : List Char} (inside : ∀ c ∈ cs, isPlain c = true ∧ c ≠ '\'')
    (rest : List Char) : literalTail (cs ++ '\'' :: rest) = some (cs, rest) := by
  have all : ∀ c ∈ cs, (isPlain c && c != '\'') = true := fun c mem => by simp [inside c mem]
  have stops : Stops (fun c => isPlain c && c != '\'') ('\'' :: rest) := stops_cons rfl
  simp only [literalTail, dropWhile_append all stops, takeWhile_append all stops]

/-! ## Long texts -/

theorem takeWhile_quote {q : Char} {rest : List Char} (stops : Stops (· == q) rest) :
    rest.takeWhile (fun c => decide (c = q)) = [] := by
  cases rest with
  | nil => rfl
  | cons c rest =>
    have other := stops c rfl
    simp only [beq_eq_false_iff_ne] at other
    simp [other]

theorem closing_end {q : Char} {rest : List Char} (stops : Stops (· == q) rest) :
    closing q (q :: q :: q :: rest) = some ([], rest) := by
  simp [closing, takeWhile_quote stops]

/-- A long text may end in one or two quotes. Before anything else they do not close it. -/
theorem closing_append {q : Char} {text rest : List Char} (short : ¬ [q, q] <+: text)
    (stops : Stops (· == q) rest) :
    closing q (q :: (text ++ q :: q :: q :: rest)) =
      if text = [] ∨ text = [q] then some (q :: text, rest) else none := by
  have run := takeWhile_quote stops
  rcases text with _ | ⟨a, _ | ⟨b, text⟩⟩
  · simp [closing, run]
  · by_cases first : a = q
    · subst first
      simp [closing, run]
    · simp [closing, first]
  · by_cases first : a = q
    · have second : b ≠ q := by
        rintro rfl
        subst first
        exact short ⟨text, rfl⟩
      simp [closing, second]
    · simp [closing, first]

/-- No escape begins with a double quote, or with the break of a line that was not broken. -/
theorem exists_escapedChar (long : Bool) {c : Char} (other : c ≠ '"') :
    ∃ first more, escapedChar long c = first :: more ∧ first ≠ '"' ∧
      (c ≠ '\n' → first ≠ '\n' ∧ first ≠ '\r') := by
  rw [escapedChar]
  split_ifs with backspace tab newline wide feed turn slash coded
  · exact ⟨'\\', _, rfl, by decide, fun _ => by decide⟩
  · exact ⟨'\\', _, rfl, by decide, fun _ => by decide⟩
  · exact ⟨'\n', [], rfl, by decide, fun inLine => absurd newline inLine⟩
  · exact ⟨'\\', _, rfl, by decide, fun _ => by decide⟩
  · exact ⟨'\\', _, rfl, by decide, fun _ => by decide⟩
  · exact ⟨'\\', _, rfl, by decide, fun _ => by decide⟩
  · exact ⟨'\\', _, rfl, by decide, fun _ => by decide⟩
  · exact ⟨'\\', _, rfl, by decide, fun _ => by decide⟩
  · exact ⟨c, [], rfl, other, fun inLine => ⟨inLine, turn⟩⟩

/-- After two quotes in a row, no third one stands for itself. -/
theorem escapedText_of_two {run : Nat} (two : 2 ≤ run) (cs : List Char) :
    Stops (· == '"') (escapedText true run cs) := by
  intro first mem
  cases cs with
  | nil => cases mem
  | cons c cs =>
    rw [escapedText] at mem
    by_cases quote : c = '"'
    · rw [if_pos quote, if_neg (by omega)] at mem
      cases mem
      rfl
    · obtain ⟨x, more, written, other, -⟩ := exists_escapedChar true quote
      rw [if_neg quote, written] at mem
      cases mem
      simpa using other

theorem escapedText_one_of_two_quotes {run : Nat} (one : 1 ≤ run) (cs : List Char) :
    ¬ ['"', '"'] <+: escapedText true run cs := by
  rintro ⟨more, written⟩
  by_cases two : 2 ≤ run
  · have stops := escapedText_of_two two cs '"'
    rw [← written] at stops
    exact absurd (stops rfl) (by decide)
  · obtain rfl : run = 1 := by omega
    cases cs with
    | nil => cases written
    | cons c cs =>
      rw [escapedText] at written
      by_cases quote : c = '"'
      · rw [if_pos quote, if_pos (by decide)] at written
        have stops := escapedText_of_two (Nat.le_refl 2) cs '"'
        rw [← (List.cons.inj written).2] at stops
        exact absurd (stops rfl) (by decide)
      · obtain ⟨x, later, escaped, other, -⟩ := exists_escapedChar true quote
        rw [if_neg quote, escaped] at written
        exact other (List.cons.inj written).1.symm

theorem eq_of_escapedText {run : Nat} {cs : List Char}
    (quotes : escapedText true run cs = [] ∨ escapedText true run cs = ['"']) :
    escapedText true run cs = cs := by
  have nil_of : ∀ {run : Nat} {cs : List Char}, escapedText true run cs = [] → cs = [] := by
    intro run cs written
    cases cs with
    | nil => rfl
    | cons c cs =>
      rw [escapedText] at written
      by_cases quote : c = '"'
      · rw [if_pos quote] at written
        split at written <;> cases written
      · obtain ⟨x, later, escaped, -⟩ := exists_escapedChar true quote
        simp [if_neg quote, escaped] at written
  rcases quotes with written | written
  · rw [written, nil_of written]
  · cases cs with
    | nil => rfl
    | cons c cs =>
      rw [written]
      rw [escapedText] at written
      by_cases quote : c = '"'
      · rw [if_pos quote] at written
        split at written
        · rw [quote, nil_of (List.cons.inj written).2]
        · simp at written
      · obtain ⟨x, later, escaped, other, -⟩ := exists_escapedChar true quote
        rw [if_neg quote, escaped] at written
        exact absurd (List.cons.inj written).1 other

section
variable {rest : List Char}

theorem longBasicTail_of_closing {c : Char} {cs : List Char} {closed : List Char × List Char}
    (closes : closing '"' (c :: cs) = some closed) : longBasicTail .plain (c :: cs) = some closed := by
  rw [longBasicTail]
  simp [closes]

theorem longBasicTail_quote {cs : List Char} (goes : closing '"' ('"' :: cs) = none) :
    longBasicTail .plain ('"' :: cs) = .cons '"' (longBasicTail .plain cs) := by
  rw [longBasicTail]
  simp [goes, isPlain]

theorem longBasicTail_break (cs : List Char) :
    longBasicTail .plain ('\n' :: cs) = .cons '\n' (longBasicTail .plain cs) := by
  rw [longBasicTail]
  simp [closing_of_ne]

theorem longBasicTail_escapedText (stops : Stops (· == '"') rest) (run : Nat) (cs : List Char) :
    longBasicTail .plain (escapedText true run cs ++ '"' :: '"' :: '"' :: rest) = some (cs, rest) := by
  induction cs generalizing run with
  | nil =>
    exact longBasicTail_of_closing (closing_end stops)
  | cons c cs ih =>
    rw [escapedText]
    by_cases quote : c = '"'
    · subst quote
      by_cases short : run < 2
      · simp only [if_true, short, and_self, List.cons_append]
        have closes := closing_append (escapedText_one_of_two_quotes (Nat.le_add_left 1 run) cs) stops
        split at closes
        · rename_i quotes
          rw [longBasicTail_of_closing closes, eq_of_escapedText quotes]
        · rw [longBasicTail_quote closes, ih]
          rfl
      · simp only [if_true, short, and_false, if_false, List.cons_append]
        rw [readsEscapes_longBasicTail.escaped (by decide) rfl, ih]
        rfl
    · rw [if_neg quote, List.append_assoc]
      by_cases newline : c = '\n'
      · subst newline
        have written : escapedChar true '\n' = ['\n'] := rfl
        rw [written, List.singleton_append, longBasicTail_break, ih]
        rfl
      · rw [readsEscapes_longBasicTail.escapedChar true quote fun _ => newline, ih]
        rfl

theorem longLiteralTail_of_closing {c : Char} {cs : List Char} {closed : List Char × List Char}
    (closes : closing '\'' (c :: cs) = some closed) : longLiteralTail (c :: cs) = some closed := by
  rw [longLiteralTail]
  simp [closes]

theorem longLiteralTail_cons {c : Char} {cs : List Char} (goes : closing '\'' (c :: cs) = none)
    (plain : needsEscape c = false) : longLiteralTail (c :: cs) = .cons c (longLiteralTail cs) := by
  have inLine : c ≠ '\r' := by
    rintro rfl
    exact absurd plain (by decide)
  have kept : c = '\n' ∨ isPlain c = true := by
    by_cases newline : c = '\n'
    · exact .inl newline
    · exact .inr (by simpa [needsEscape, newline] using plain)
  rw [longLiteralTail]
  simp only [goes]
  rcases kept with newline | plain
  · simp [newline]
  · simp [plain, inLine]

theorem longLiteralTail_append (stops : Stops (· == '\'') rest) {cs : List Char}
    (plain : ∀ c ∈ cs, needsEscape c = false) (short : ¬ ['\'', '\'', '\''] <:+: cs) :
    longLiteralTail (cs ++ '\'' :: '\'' :: '\'' :: rest) = some (cs, rest) := by
  induction cs with
  | nil => exact longLiteralTail_of_closing (closing_end stops)
  | cons c cs ih =>
    have first := plain c List.mem_cons_self
    have later := ih (fun c mem => plain c (List.mem_cons_of_mem _ mem))
      fun within => short (within.trans (List.suffix_cons c cs).isInfix)
    rw [List.cons_append]
    by_cases quote : c = '\''
    · subst quote
      have two : ¬ ['\'', '\''] <+: cs := fun more =>
        short ((List.cons_prefix_cons.mpr ⟨rfl, more⟩).isInfix)
      have closes := closing_append two stops
      split at closes
      · exact longLiteralTail_of_closing closes
      · rw [longLiteralTail_cons closes first, later]
        rfl
    · rw [longLiteralTail_cons (closing_of_ne quote _) first, later]
      rfl

end

/-- Three of a kind in a row are a run. -/
theorem not_three_of_longestRun {q : Char} {cs : List Char} (short : longestRun q cs ≤ 2) :
    ¬ [q, q, q] <:+: cs := by
  have grows : ∀ (cs : List Char) (state : Nat × Nat), state.2 ≤ (cs.foldl (fun (x : Nat × Nat) c =>
      if c = q then (x.1 + 1, max x.2 (x.1 + 1)) else (0, x.2)) state).2 := by
    intro cs
    induction cs with
    | nil => exact fun state => Nat.le_refl _
    | cons c cs ih =>
      intro state
      rw [List.foldl_cons]
      split
      · exact Nat.le_trans (Nat.le_max_left state.2 (state.1 + 1)) (ih (_, max state.2 (state.1 + 1)))
      · exact ih (0, state.2)
  rintro ⟨before, after, rfl⟩
  rw [longestRun, List.foldl_append, List.foldl_append] at short
  simp only [List.foldl_cons, List.foldl_nil, if_true] at short
  have reached := Nat.le_trans (grows after _) short
  omega

/-! ## Texts as values -/

/-- A quote of either kind. -/
def isQuote (c : Char) : Bool := c == '"' || c == '\''

/-- Without three quotes in front, a text is a short one. -/
theorem anyText_of_not_three {cs : List Char} (double : ¬ ['"', '"', '"'] <+: cs)
    (single : ¬ ['\'', '\'', '\''] <+: cs) : anyText cs = shortText cs := by
  unfold anyText
  split
  · rename_i rest
    exact absurd ⟨rest, rfl⟩ double
  · rename_i rest
    exact absurd ⟨rest, rfl⟩ single
  · rfl

theorem skipBreak_eq {cs : List Char} (inLine : ∀ c ∈ cs.head?, c ≠ '\n' ∧ c ≠ '\r') :
    skipBreak cs = cs := by
  unfold skipBreak
  split
  · exact absurd rfl (inLine _ rfl).1
  · exact absurd rfl (inLine _ rfl).2
  · rfl

section
variable {cs rest : List Char}

theorem shortText_basic (cs rest : List Char) :
    shortText ((writeAs .basic cs).toList ++ rest) = some (cs, rest) := by
  simp [writeAs, shortText, basicTail_escapedText]

theorem shortText_literal (inside : ∀ c ∈ cs, isPlain c = true ∧ c ≠ '\'') (rest : List Char) :
    shortText ((writeAs .literal cs).toList ++ rest) = some (cs, rest) := by
  simp [writeAs, shortText, literalTail_append inside]

theorem plain_of_literal (form : formOf cs = .literal) : ∀ c ∈ cs, isPlain c = true ∧ c ≠ '\'' := by
  simp only [formOf] at form
  split_ifs at form with basic literal
  simp only [Bool.and_eq_true, Bool.not_eq_true', List.any_eq_false, List.contains_eq_mem,
    decide_eq_false_iff_not] at literal
  obtain ⟨⟨coded, broken⟩, quoted⟩ := literal
  intro c mem
  have newline : c ≠ '\n' := fun same => broken (same ▸ mem)
  have plain := coded c mem
  refine ⟨?_, fun same => quoted (same ▸ mem)⟩
  simpa [needsEscape, newline] using plain

theorem plain_of_longLiteral (form : formOf cs = .longLiteral) :
    (∀ c ∈ cs, needsEscape c = false) ∧ ¬ ['\'', '\'', '\''] <:+: cs := by
  simp only [formOf] at form
  split_ifs at form with basic literal longBasic longLiteral
  simp only [Bool.and_eq_true, Bool.not_eq_true', List.any_eq_false, decide_eq_true_eq] at longLiteral
  refine ⟨?_, not_three_of_longestRun longLiteral.2⟩
  intro c mem
  simpa using longLiteral.1 c mem

theorem not_quotes_of_stops {q : Char} (quote : isQuote q = true) (stops : Stops isQuote rest)
    {more : List Char} : rest ≠ q :: more := by
  rintro rfl
  simp [stops q rfl] at quote

/-- What may precede a line break in a text with line breaks, and nothing in another, is skipped. -/
theorem skipBreak_longOpening {body : List Char}
    (inLine : '\n' ∉ cs → ∀ c ∈ body.head?, c ≠ '\n' ∧ c ≠ '\r') :
    skipBreak ((if cs.contains '\n' then ['\n'] else []) ++ body) = body := by
  by_cases broken : '\n' ∈ cs
  · simp [broken, skipBreak]
  · simp [broken, skipBreak_eq (inLine broken)]

theorem toList_longOpening (quotes : String) (cs : List Char) : (longOpening quotes cs).toList =
    quotes.toList ++ if cs.contains '\n' then ['\n'] else [] := by
  rw [longOpening]
  split <;> simp

theorem head?_escapedText (unbroken : '\n' ∉ cs) (run : Nat) :
    ∀ c ∈ (escapedText true run cs ++ '"' :: '"' :: '"' :: rest).head?, c ≠ '\n' ∧ c ≠ '\r' := by
  intro c mem
  cases cs with
  | nil =>
    cases mem
    decide
  | cons first cs =>
    rw [escapedText] at mem
    by_cases quote : first = '"'
    · rw [if_pos quote] at mem
      split at mem <;> cases mem <;> decide
    · obtain ⟨x, more, written, -, kept⟩ := exists_escapedChar true quote
      rw [if_neg quote, written] at mem
      cases mem
      exact kept fun same => unbroken (same ▸ List.mem_cons_self)

section
variable (stops : Stops isQuote rest)
include stops

theorem stops_quote {q : Char} (quote : isQuote q = true) : Stops (· == q) rest := by
  intro c first
  have other := stops c first
  simp only [beq_eq_false_iff_ne]
  rintro rfl
  simp [quote] at other

theorem anyText_basic (cs : List Char) :
    anyText ((writeAs .basic cs).toList ++ rest) = some (cs, rest) := by
  rw [anyText_of_not_three, shortText_basic]
  · rintro ⟨more, quotes⟩
    simp only [writeAs, String.toList_append, String.toList_ofList] at quotes
    cases cs with
    | nil => exact not_quotes_of_stops rfl stops (by simpa [escapedText] using quotes.symm)
    | cons c cs =>
      rw [escapedText] at quotes
      by_cases quote : c = '"'
      · simp [quote] at quotes
      · obtain ⟨first, later, written, other, -⟩ := exists_escapedChar false quote
        simp [quote, written, other.symm] at quotes
  · rintro ⟨more, quotes⟩
    simp [writeAs] at quotes

theorem anyText_literal (inside : ∀ c ∈ cs, isPlain c = true ∧ c ≠ '\'') :
    anyText ((writeAs .literal cs).toList ++ rest) = some (cs, rest) := by
  rw [anyText_of_not_three, shortText_literal inside]
  · rintro ⟨more, quotes⟩
    simp [writeAs] at quotes
  · rintro ⟨more, quotes⟩
    cases cs with
    | nil => exact not_quotes_of_stops (q := '\'') rfl stops (by simpa [writeAs] using quotes.symm)
    | cons c cs =>
      have other := (inside c List.mem_cons_self).2
      simp [writeAs, other.symm] at quotes

theorem anyText_longBasic (cs : List Char) :
    anyText ((writeAs .longBasic cs).toList ++ rest) = some (cs, rest) := by
  have opened : (writeAs .longBasic cs).toList ++ rest = '"' :: '"' :: '"' ::
      ((if cs.contains '\n' then ['\n'] else []) ++
        (escapedText true 0 cs ++ '"' :: '"' :: '"' :: rest)) := by
    simp [writeAs, toList_longOpening]
  rw [opened, anyText, skipBreak_longOpening fun unbroken => head?_escapedText unbroken 0]
  exact longBasicTail_escapedText (stops_quote stops rfl) 0 cs

theorem anyText_longLiteral (plain : ∀ c ∈ cs, needsEscape c = false)
    (short : ¬ ['\'', '\'', '\''] <:+: cs) :
    anyText ((writeAs .longLiteral cs).toList ++ rest) = some (cs, rest) := by
  have opened : (writeAs .longLiteral cs).toList ++ rest = '\'' :: '\'' :: '\'' ::
      ((if cs.contains '\n' then ['\n'] else []) ++ (cs ++ '\'' :: '\'' :: '\'' :: rest)) := by
    simp [writeAs, toList_longOpening]
  have inLine : '\n' ∉ cs →
      ∀ c ∈ (cs ++ '\'' :: '\'' :: '\'' :: rest).head?, c ≠ '\n' ∧ c ≠ '\r' := by
    intro unbroken c first
    cases cs with
    | nil =>
      cases first
      decide
    | cons a cs =>
      cases first
      refine ⟨fun same => unbroken (same ▸ List.mem_cons_self), ?_⟩
      rintro rfl
      exact absurd (plain _ List.mem_cons_self) (by decide)
  rw [opened, anyText, skipBreak_longOpening inLine]
  exact longLiteralTail_append (stops_quote stops rfl) plain short

/-- Before anything but a quote, a text that is written reads back. -/
theorem anyText_writeText (s : String) :
    anyText ((writeText s).toList ++ rest) = some (s.toList, rest) := by
  rw [writeText]
  cases form : formOf s.toList with
  | basic => exact anyText_basic stops s.toList
  | literal => exact anyText_literal stops (plain_of_literal form)
  | longBasic => exact anyText_longBasic stops s.toList
  | longLiteral =>
    obtain ⟨plain, short⟩ := plain_of_longLiteral form
    exact anyText_longLiteral stops plain short

end

end

end Autoscaler.Toml
