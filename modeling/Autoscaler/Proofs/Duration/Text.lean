import Autoscaler.Duration.Reader
import Autoscaler.Proofs.Number.Decimal
import Autoscaler.Proofs.Traversal

/-!
# Durations read back

A duration is written as numbers with units, from years down to nanoseconds. Reading goes through the
characters once and keeps a sum, of which every intermediate value has to fit; since the sums that are
met on the way are parts of the duration itself, none of them is too large (`reads_parts`). So the text
of a duration gives it back, however long it is (`parse_text`).
-/

namespace Autoscaler

namespace Text

/-- A word that neither begins nor ends with a blank character. -/
structure Tight (cs : List Char) : Prop where
  first : ∃ c rest, cs = c :: rest ∧ isBlank c = false
  last : ∃ rest c, cs = rest ++ [c] ∧ isBlank c = false

variable {cs ds : List Char}

theorem Tight.append (tight : Tight cs) (tightLast : Tight ds) (middle : List Char) :
    Tight (cs ++ middle ++ ds) := by
  obtain ⟨c, rest, rfl, kept⟩ := tight.first
  obtain ⟨others, l, rfl, keptLast⟩ := tightLast.last
  exact ⟨⟨c, rest ++ middle ++ (others ++ [l]), by simp, kept⟩,
    ⟨c :: rest ++ middle ++ others, l, by simp, keptLast⟩⟩

theorem tight_intercalate {words : List (List Char)} (any : words ≠ [])
    (tight : ∀ w ∈ words, Tight w) (separator : List Char) : Tight (separator.intercalate words) := by
  induction words with
  | nil => exact absurd rfl any
  | cons word rest ih =>
    have first := tight word List.mem_cons_self
    cases rest with
    | nil => rwa [List.intercalate_singleton]
    | cons next others =>
      have later := ih (List.cons_ne_nil _ _) fun w mem => tight w (List.mem_cons_of_mem _ mem)
      rw [List.intercalate_cons_cons]
      exact first.append later separator

theorem trimmed_of_tight (tight : Tight cs) : trimmed cs = cs := by
  obtain ⟨c, rest, shape, kept⟩ := tight.first
  obtain ⟨others, l, shapeLast, keptLast⟩ := tight.last
  have front : cs.dropWhile isBlank = cs := by
    rw [shape, List.dropWhile_cons_of_neg (by simp [kept])]
  have back : cs.reverse.dropWhile isBlank = cs.reverse := by
    rw [shapeLast, List.reverse_append, List.reverse_singleton, List.singleton_append,
      List.dropWhile_cons_of_neg (by simp [keptLast])]
  rw [trimmed, front, back, List.reverse_reverse]

theorem isBlank_of_isDigit {c : Char} (digit : c.isDigit = true) : isBlank c = false := by
  simp only [Char.isDigit, Bool.and_eq_true, decide_eq_true_eq, ge_iff_le, UInt32.le_iff_toNat_le] at digit
  have low : (48 : Nat) ≤ c.toNat := digit.1
  have high : c.toNat ≤ 57 := digit.2
  simp only [isBlank, Bool.or_eq_false_iff, Bool.and_eq_false_iff, decide_eq_false_iff_not,
    beq_eq_false_iff_ne]
  omega

theorem code_of_isAlpha {c : Char} (letter : c.isAlpha = true) :
    65 ≤ c.toNat ∧ c.toNat ≤ 90 ∨ 97 ≤ c.toNat ∧ c.toNat ≤ 122 := by
  rcases Bool.or_eq_true_iff.mp letter with upper | lower
  · obtain ⟨low, high⟩ := of_decide_eq_true upper
    exact .inl ⟨UInt32.le_iff_toNat_le.mp low, UInt32.le_iff_toNat_le.mp high⟩
  · obtain ⟨low, high⟩ := Bool.and_eq_true_iff.mp lower
    exact .inr ⟨UInt32.le_iff_toNat_le.mp (of_decide_eq_true low),
      UInt32.le_iff_toNat_le.mp (of_decide_eq_true high)⟩

theorem isBlank_of_isAlpha {c : Char} (letter : c.isAlpha = true) : isBlank c = false := by
  have code := code_of_isAlpha letter
  simp only [isBlank, Bool.or_eq_false_iff, Bool.and_eq_false_iff, decide_eq_false_iff_not,
    beq_eq_false_iff_ne]
  omega

theorem isDigit_of_isAlpha {c : Char} (letter : c.isAlpha = true) : c.isDigit = false := by
  have code := code_of_isAlpha letter
  by_contra digit
  simp only [Bool.not_eq_false, Char.isDigit, Bool.and_eq_true, decide_eq_true_eq, ge_iff_le,
    UInt32.le_iff_toNat_le] at digit
  have high : c.toNat ≤ 57 := digit.2
  omega

end Text

namespace Duration

variable {c : Char} {total n length offset since : Nat} {name : List Char}

/-! ## One character -/

theorem fitted_eq_ok (fits : n < wordLimit) : fitted n = .ok n := if_pos fits

theorem readChar_seek (digit : c.isDigit = true) : readChar ⟨offset, total, .seek since⟩ c =
    .ok ⟨offset + c.utf8Size, total, .whole (digitValue c)⟩ := by
  simp only [readChar, digit, if_true]
  rfl

theorem readChar_whole (digit : c.isDigit = true) (fits : n * 10 + digitValue c < wordLimit) :
    readChar ⟨offset, total, .whole n⟩ c =
      .ok ⟨offset + c.utf8Size, total, .whole (n * 10 + digitValue c)⟩ := by
  simp only [readChar, digit, if_true, fitted_eq_ok fits]
  rfl

theorem readChar_letter (letter : c.isAlpha = true) : readChar ⟨offset, total, .whole n⟩ c =
    .ok ⟨offset + c.utf8Size, total, .unit n none [c]⟩ := by
  simp only [readChar, Text.isDigit_of_isAlpha letter, Text.isBlank_of_isAlpha letter, isUnitLetter, letter]
  rfl

/-- A blank ends an item. -/
theorem readChar_blank {sum : Nat} (added : plusItem total n none (String.ofList name) = .ok sum) :
    readChar ⟨offset, total, .unit n none name⟩ ' ' =
      .ok ⟨offset + ' '.utf8Size, sum, .seek (offset + ' '.utf8Size)⟩ := by
  have digit : ' '.isDigit = false := rfl
  have blank : Text.isBlank ' ' = true := rfl
  simp only [readChar, digit, blank, added]
  rfl

theorem readChar_unit (letter : c.isAlpha = true) : readChar ⟨offset, total, .unit n none name⟩ c =
    .ok ⟨offset + c.utf8Size, total, .unit n none (name ++ [c])⟩ := by
  simp only [readChar, Text.isDigit_of_isAlpha letter, Text.isBlank_of_isAlpha letter, isUnitLetter, letter]
  rfl

/-! ## A number and its unit -/

theorem le_ofDigitChars (digits : List Char) (n : Nat) : n ≤ Nat.ofDigitChars 10 digits n := by
  have shifted : n ≤ 10 ^ digits.length * n := Nat.le_mul_of_pos_left n (Nat.pow_pos (by decide))
  rw [Nat.ofDigitChars_eq_ofDigitChars_zero]
  omega

/-- A number is read if it fits, since no part of it in front is greater than the whole. -/
theorem foldlM_digits {digits : List Char} (all : ∀ c ∈ digits, c.isDigit = true) {m : Nat}
    (value : Nat.ofDigitChars 10 digits n = m) (fits : m < wordLimit) : ∃ offset',
      digits.foldlM readChar ⟨offset, total, .whole n⟩ = .ok ⟨offset', total, .whole m⟩ := by
  induction digits generalizing offset n with
  | nil =>
    cases value
    exact ⟨offset, rfl⟩
  | cons c rest ih =>
    have next : n * 10 + digitValue c = 10 * n + (c.toNat - '0'.toNat) := by
      rw [Nat.mul_comm, digitValue]
    rw [Nat.ofDigitChars_cons, ← next] at value
    have front := le_ofDigitChars rest (n * 10 + digitValue c)
    rw [List.foldlM_cons, readChar_whole (all c List.mem_cons_self) (by omega)]
    exact ih (fun d mem => all d (List.mem_cons_of_mem c mem)) value

theorem foldlM_letters {letters : List Char} (all : ∀ c ∈ letters, c.isAlpha = true) : ∃ offset',
    letters.foldlM readChar ⟨offset, total, .unit n none name⟩ =
      .ok ⟨offset', total, .unit n none (name ++ letters)⟩ := by
  induction letters generalizing offset name with
  | nil => exact ⟨offset, by simp [pure, Except.pure]⟩
  | cons c rest ih =>
    rw [List.foldlM_cons, readChar_unit (all c List.mem_cons_self), List.append_cons name c rest]
    exact ih fun d mem => all d (List.mem_cons_of_mem c mem)

/-- A name, all letters, of a unit of so many nanoseconds: of whole seconds, or of less than one. -/
structure Measures (name : String) (length : Nat) : Prop where
  nonempty : name.toList ≠ []
  letters : ∀ c ∈ name.toList, c.isAlpha = true
  known : unit? name = some length
  whole : length < second ∨ second ∣ length

theorem foldlM_item {name : String} (fits : n < wordLimit) (unit : Measures name length) : ∃ offset',
    (Nat.toDigits 10 n ++ name.toList).foldlM readChar ⟨offset, total, .seek since⟩ =
      .ok ⟨offset', total, .unit n none name.toList⟩ := by
  have digits : ∀ c ∈ Nat.toDigits 10 n, c.isDigit = true := fun _ => isDigit_of_mem_toDigits
  have value : Nat.ofDigitChars 10 (Nat.toDigits 10 n) 0 = n :=
    Nat.ofDigitChars_toDigits (by decide) (by decide)
  have some : Nat.toDigits 10 n ≠ [] := Nat.toDigits_ne_nil
  have letters := unit.letters
  obtain ⟨c, others, number⟩ := List.exists_cons_of_ne_nil some
  obtain ⟨l, more, word⟩ := List.exists_cons_of_ne_nil unit.nonempty
  rw [number] at digits value
  rw [word] at letters
  rw [Nat.ofDigitChars_cons, Nat.mul_zero, Nat.zero_add] at value
  obtain ⟨middle, read⟩ : ∃ middle,
      others.foldlM readChar ⟨offset + c.utf8Size, total, .whole (digitValue c)⟩ =
        .ok ⟨middle, total, .whole n⟩ :=
    foldlM_digits (fun d mem => digits d (List.mem_cons_of_mem c mem)) value fits
  obtain ⟨last, named⟩ : ∃ last,
      more.foldlM readChar ⟨middle + l.utf8Size, total, .unit n none [l]⟩ =
        .ok ⟨last, total, .unit n none ([l] ++ more)⟩ :=
    foldlM_letters fun d mem => letters d (List.mem_cons_of_mem l mem)
  refine ⟨last, ?_⟩
  rw [number, word, List.foldlM_append, List.foldlM_cons, readChar_seek (digits c List.mem_cons_self)]
  show (others.foldlM readChar _ >>= _) = _
  rw [read]
  show (l :: more).foldlM readChar _ = _
  rw [List.foldlM_cons, readChar_letter (letters l List.mem_cons_self)]
  exact named

theorem plus_eq_ok {seconds nanos : Nat} (fits : total % second + nanos < wordLimit)
    (bound : total + seconds * second + nanos < wordLimit * second) :
    plus total seconds nanos = .ok (total + seconds * second + nanos) := by
  have positive : 0 < second := by decide
  have kept := (Nat.div_lt_iff_lt_mul positive).mpr bound
  unfold plus
  exact bind_eq_ok.mpr ⟨_, fitted_eq_ok fits, bind_eq_ok.mpr ⟨_, fitted_eq_ok kept, rfl⟩⟩

/-- A number of units adds its nanoseconds to the sum whenever the sum stays a duration. -/
theorem plusWhole_eq_ok (whole : length < second ∨ second ∣ length)
    (short : length < second → n * length < second) (bound : total + n * length < wordLimit * second) :
    plusWhole total n length = .ok (total + n * length) := by
  have positive : 0 < second := by decide
  have past : total % second < second := Nat.mod_lt _ positive
  have room : second + second < wordLimit := by decide
  unfold plusWhole
  split
  · rename_i small
    have some := short small
    have added : plus total 0 (n * length) = .ok (total + 0 * second + n * length) :=
      plus_eq_ok (by omega) (by omega)
    rw [Nat.zero_mul, Nat.add_zero] at added
    exact bind_eq_ok.mpr ⟨_, fitted_eq_ok (by omega), added⟩
  · rename_i large
    obtain ⟨k, rfl⟩ := whole.resolve_left large
    have regrouped : n * (second * k) = n * k * second := by ring
    have count : n * k < wordLimit := Nat.lt_of_mul_lt_mul_right (a := second) (by omega)
    have added : plus total (n * k) 0 = .ok (total + n * k * second + 0) :=
      plus_eq_ok (by omega) (by omega)
    rw [Nat.add_zero, ← regrouped] at added
    rw [Nat.mul_div_cancel_left k positive]
    exact bind_eq_ok.mpr ⟨_, fitted_eq_ok count, added⟩

theorem plusItem_eq_ok {name : String} (unit : Measures name length)
    (short : length < second → n * length < second) (bound : total + n * length < wordLimit * second) :
    plusItem total n none name = .ok (total + n * length) := by
  rw [plusItem, unit.known]
  exact bind_eq_ok.mpr ⟨_, plusWhole_eq_ok unit.whole short bound, rfl⟩

/-! ## The parts of a duration -/

/-- The names of the units of at least a second that durations are written with. -/
def longUnits : List String := ["year", "month", "day", "h", "m", "s"]

/-- The names of the shorter units. -/
def shortUnits : List String := ["ms", "us", "ns"]

/-- The name of a part's unit as it is written. -/
def partName (part : Nat × String) : String :=
  part.2 ++ if part.2 ∈ ["year", "month", "day"] ∧ 1 < part.1 then "s" else ""

/-- The length of a part's unit. -/
def partLength (part : Nat × String) : Nat := (unit? part.2).getD 0

/-- What a part counts, in nanoseconds. -/
def partNanos (part : Nat × String) : Nat := part.1 * partLength part

theorem toList_partText (part : Nat × String) :
    (partText part).toList = Nat.toDigits 10 part.1 ++ (partName part).toList := by
  rw [partText, String.append_assoc, String.toList_append, partName]
  simp

/-- The names of the units have lengths, and so do their plurals, the same ones. -/
theorem measures_partName {part : Nat × String} (listed : part.2 ∈ longUnits ++ shortUnits) :
    Measures (partName part) (partLength part) := by
  have singular : ∀ u ∈ longUnits ++ shortUnits, u.toList ≠ [] ∧ u.toList.all Char.isAlpha = true ∧
      unit? u = some ((unit? u).getD 0) ∧
      ((unit? u).getD 0 < second ∨ second ∣ (unit? u).getD 0) := by
    decide +kernel
  have plural : ∀ u ∈ ["year", "month", "day"], (u ++ "s").toList ≠ [] ∧
      (u ++ "s").toList.all Char.isAlpha = true ∧ unit? (u ++ "s") = some ((unit? u).getD 0) := by
    decide +kernel
  obtain ⟨nonempty, letters, known, whole⟩ := singular part.2 listed
  unfold partName partLength
  split
  · rename_i many
    obtain ⟨nonempty, letters, known⟩ := plural part.2 many.1
    exact ⟨nonempty, List.all_eq_true.mp letters, known, whole⟩
  · rw [String.append_empty]
    exact ⟨nonempty, List.all_eq_true.mp letters, known, whole⟩

/-- What is needed of a part to be read back: it has a unit and a number that fits, and if the unit is
shorter than a second, so is the part. -/
structure Readable (part : Nat × String) : Prop where
  listed : part.2 ∈ longUnits ++ shortUnits
  fits : part.1 < wordLimit
  short : partLength part < second → partNanos part < second

theorem readable_of_mem_parts (d : Duration) : ∀ part ∈ d.parts, Readable part := by
  have seconds : d.seconds < wordLimit := Nat.div_lt_of_lt_mul (Nat.mul_comm .. ▸ d.nanos_lt)
  have past : d.subsecond < second := Nat.mod_lt _ (by decide)
  have long : ∀ n, ∀ u ∈ longUnits, n ≤ d.seconds → Readable (n, u) := by
    intro n u listed below
    have large : ∀ u ∈ longUnits, second ≤ (unit? u).getD 0 := by decide +kernel
    exact ⟨List.mem_append_left _ listed, below.trans_lt seconds,
      fun small => absurd small (Nat.not_lt.mpr (large u listed))⟩
  have short : ∀ n, ∀ u ∈ shortUnits, n < 1000 → Readable (n, u) := by
    intro n u listed below
    have small : ∀ u ∈ shortUnits, (unit? u).getD 0 ≤ 1000000 := by decide +kernel
    have room : 1000 < wordLimit := by decide
    refine ⟨List.mem_append_right _ listed, below.trans room, fun _ => ?_⟩
    calc n * (unit? u).getD 0 ≤ 999 * 1000000 := Nat.mul_le_mul (by omega) (small u listed)
      _ < second := by decide
  unfold second at past
  simp only [parts, List.forall_mem_cons, yearSeconds, monthSeconds]
  refine ⟨long _ _ (by decide) (by omega), long _ _ (by decide) (by omega),
    long _ _ (by decide) (by omega), long _ _ (by decide) (by omega), long _ _ (by decide) (by omega),
    long _ _ (by decide) (by omega), short _ _ (by decide) (by omega), short _ _ (by decide) (by omega),
    short _ _ (by decide) (by omega), by simp⟩

-- For any `f`, so that no product with the length of a unit is computed on the way.
theorem sum_map_parts (d : Duration) (f : Nat × String → Nat) : (d.parts.map f).sum =
    f (d.seconds / yearSeconds, "year") + (f (d.seconds % yearSeconds / monthSeconds, "month") +
      (f (d.seconds % yearSeconds % monthSeconds / 86400, "day") +
      (f (d.seconds % yearSeconds % monthSeconds % 86400 / 3600, "h") +
      (f (d.seconds % yearSeconds % monthSeconds % 86400 % 3600 / 60, "m") +
      (f (d.seconds % yearSeconds % monthSeconds % 86400 % 60, "s") +
      (f (d.subsecond / 1000000, "ms") + (f (d.subsecond / 1000 % 1000, "us") +
        f (d.subsecond % 1000, "ns")))))))) := rfl

theorem sum_parts (d : Duration) : (d.parts.map partNanos).sum = d.nanos := by
  have lengths : (longUnits ++ shortUnits).map unit? = [some (31557600 * 1000000000),
      some (2630016 * 1000000000), some (86400 * 1000000000), some (3600 * 1000000000),
      some (60 * 1000000000), some 1000000000, some 1000000, some 1000, some 1] := by
    decide +kernel
  have whole : d.nanos = d.seconds * second + d.subsecond := (Nat.div_add_mod' d.nanos second).symm
  simp only [longUnits, shortUnits, List.cons_append, List.nil_append, List.map_cons, List.map_nil,
    List.cons.injEq, and_true] at lengths
  rw [sum_map_parts]
  simp only [partNanos, partLength, lengths, Option.getD_some, yearSeconds, monthSeconds]
  rw [whole, second]
  omega

theorem tight_partText {part : Nat × String} (listed : part.2 ∈ longUnits ++ shortUnits) :
    Text.Tight (partText part).toList := by
  have unit := measures_partName listed
  have some : Nat.toDigits 10 part.1 ≠ [] := Nat.toDigits_ne_nil
  obtain ⟨c, others, number⟩ := List.exists_cons_of_ne_nil some
  have digit : c.isDigit = true := isDigit_of_mem_toDigits (number ▸ List.mem_cons_self)
  have letter := unit.letters _ (List.getLast_mem unit.nonempty)
  rw [toList_partText]
  constructor
  · exact ⟨c, others ++ (partName part).toList, by rw [number]; rfl, Text.isBlank_of_isDigit digit⟩
  · refine ⟨Nat.toDigits 10 part.1 ++ (partName part).toList.dropLast, _, ?_,
      Text.isBlank_of_isAlpha letter⟩
    rw [List.append_assoc, List.dropLast_append_getLast]

/-- Reading the parts of a duration adds them up. -/
theorem reads_parts (offset since : Nat) {parts : List (Nat × String)} (any : parts ≠ [])
    (readable : ∀ part ∈ parts, Readable part)
    (bound : total + (parts.map partNanos).sum < wordLimit * second) : ∃ p,
      ([' '].intercalate (parts.map fun part => (partText part).toList)).foldlM readChar
        ⟨offset, total, .seek since⟩ = .ok p ∧
      finish p = .ok (total + (parts.map partNanos).sum) := by
  induction parts generalizing total offset since with
  | nil => exact absurd rfl any
  | cons part rest ih =>
    have own := readable part List.mem_cons_self
    have unit := measures_partName own.listed
    obtain ⟨next, read⟩ : ∃ next, (partText part).toList.foldlM readChar ⟨offset, total, .seek since⟩ =
        .ok ⟨next, total, .unit part.1 none (partName part).toList⟩ := by
      rw [toList_partText]
      exact foldlM_item own.fits unit
    have split : total + ((part :: rest).map partNanos).sum =
        total + partNanos part + (rest.map partNanos).sum := by
      rw [List.map_cons, List.sum_cons, Nat.add_assoc]
    rw [split] at bound ⊢
    have added : plusItem total part.1 none (String.ofList (partName part).toList) =
        .ok (total + partNanos part) := by
      rw [String.ofList_toList]
      exact plusItem_eq_ok unit own.short (lt_of_le_of_lt (Nat.le_add_right _ _) bound)
    cases rest with
    | nil =>
      rw [List.map_singleton, List.intercalate_singleton]
      exact ⟨_, read, added⟩
    | cons other others =>
      obtain ⟨p, later, done⟩ := ih _ _ (List.cons_ne_nil _ _)
        (fun part mem => readable part (List.mem_cons_of_mem _ mem)) bound
      refine ⟨p, ?_, done⟩
      rw [List.map_cons, List.map_cons, List.intercalate_cons_cons, List.foldlM_append,
        List.foldlM_append]
      refine bind_eq_ok.mpr ⟨_, bind_eq_ok.mpr ⟨_, read, ?_⟩, later⟩
      rw [List.foldlM_cons, readChar_blank added]
      rfl

/-! ## The text of a duration -/

/-- Parts of nothing are not written and count nothing. -/
theorem sum_filter_parts (parts : List (Nat × String)) :
    ((parts.filter (·.1 ≠ 0)).map partNanos).sum = (parts.map partNanos).sum := by
  induction parts with
  | nil => rfl
  | cons part rest ih =>
    by_cases none : part.1 = 0
    · have nothing : partNanos part = 0 := by rw [partNanos, none, Nat.zero_mul]
      rw [List.filter_cons_of_neg (by simp [none]), ih, List.map_cons, List.sum_cons, nothing,
        Nat.zero_add]
    · rw [List.filter_cons_of_pos (by simp [none]), List.map_cons, List.sum_cons, ih, List.map_cons,
        List.sum_cons]

theorem readNanos_eq_ok {cs : List Char} {p : Progress} (nonempty : cs ≠ [])
    (read : cs.foldlM readChar ⟨0, 0, .seek 0⟩ = .ok p) (done : finish p = .ok n) :
    readNanos cs = .ok n := by
  rw [readNanos, if_neg nonempty]
  split
  · -- A number without a unit is read to the end, and refused there.
    rename_i bare
    rw [bare] at read
    cases read
    cases done
  · exact bind_eq_ok.mpr ⟨p, read, done⟩

theorem ofSeconds?_nanos (d : Duration) : ofSeconds? 0 d.nanos = some d := by
  have same : 0 * second + d.nanos = d.nanos := by rw [Nat.zero_mul, Nat.zero_add]
  simp only [ofSeconds?, same, d.nanos_lt, dif_pos]

/-- The text of a duration gives it back. -/
theorem parse_text (d : Duration) : parse d.text = .ok d := by
  by_cases none : d.nanos = 0
  · obtain ⟨_, bound⟩ := d
    cases none
    show parse zero.text = .ok zero
    decide +kernel
  · have readable : ∀ part ∈ d.parts.filter (·.1 ≠ 0), Readable part :=
      fun part mem => readable_of_mem_parts d part (List.mem_filter.mp mem).1
    have sum : 0 + ((d.parts.filter (·.1 ≠ 0)).map partNanos).sum = d.nanos := by
      rw [Nat.zero_add, sum_filter_parts, sum_parts]
    have any : d.parts.filter (·.1 ≠ 0) ≠ [] := by
      intro nothing
      rw [nothing] at sum
      exact none sum.symm
    have written : d.text.toList =
        [' '].intercalate ((d.parts.filter (·.1 ≠ 0)).map fun part => (partText part).toList) := by
      rw [text, if_neg none, String.toList_intercalate, List.map_map]
      rfl
    have tight : Text.Tight d.text.toList := by
      rw [written]
      refine Text.tight_intercalate (by simpa using any) ?_ [' ']
      exact List.forall_mem_map.mpr fun part mem => tight_partText (readable part mem).listed
    obtain ⟨p, read, done⟩ := reads_parts 0 0 any readable (sum ▸ d.nanos_lt)
    rw [sum] at done
    obtain ⟨c, rest, first, -⟩ := tight.first
    have nonempty : d.text.toList ≠ [] := first ▸ List.cons_ne_nil c rest
    rw [← written] at read
    rw [parse, Text.trimmed_of_tight tight]
    refine bind_eq_ok.mpr ⟨d.nanos, readNanos_eq_ok nonempty read done, ?_⟩
    rw [ofSeconds?_nanos]

/-- The longest duration has a part of every unit. -/
example : text ⟨wordLimit * second - 1, by decide⟩ =
    "584542046090years 7months 15days 17h 5m 3s 999ms 999us 999ns" := by decide +kernel

theorem text_injective {d e : Duration} (same : d.text = e.text) : d = e := by
  have read := parse_text d
  rw [same, parse_text e] at read
  exact (Except.ok.inj read).symm

end Duration

end Autoscaler
