import Autoscaler.Document.Toml.Printer
import Autoscaler.Document.Toml.Scalar
import Autoscaler.Proofs.Document.Toml.Text
import Autoscaler.Proofs.Number.Decimal

/-!
# Numbers and truth values in TOML read back

Integers of 64 bits read back as they are (`scalar_integer`), and so do all floats (`scalar_float`):
the text of one that is neither infinite nor without number has a point, so that it is no integer.
-/

namespace Autoscaler.Toml

/-! ## Digits -/

/-- Without underscores there is only one group. -/
theorem grouped?_of_plain {cs : List Char} (plain : '_' ∉ cs) :
    grouped? Char.isDigit cs = if cs != [] && cs.all Char.isDigit then some cs else none := by
  have kept : cs.filter (fun c => decide (c ≠ '_')) = cs := by
    refine List.filter_eq_self.mpr fun c mem => decide_eq_true ?_
    rintro rfl
    exact plain mem
  rw [grouped?, List.splitOn_eq_singleton plain, kept, List.all_cons, List.all_nil, Bool.and_true]

section
variable {digits : List Char} (all : ∀ c ∈ digits, c.isDigit = true) (nonempty : digits ≠ [])
include all

theorem underscore_not_mem : '_' ∉ digits := fun mem => absurd (all '_' mem) (by decide)

include nonempty

theorem grouped?_of_digits : grouped? Char.isDigit digits = some digits := by
  rw [grouped?_of_plain (underscore_not_mem all), if_pos]
  simpa [nonempty] using all

theorem wholeDigits?_of_digits (first : digits.length = 1 ∨ digits.head? ≠ some '0') :
    wholeDigits? digits = some digits := by
  rw [wholeDigits?, grouped?_of_digits all nonempty]
  simpa [Option.filter, or_iff_not_imp_left] using first

end

/-- A sign in front is split off. -/
theorem splitSign_signText (negative : Bool) {c : Char} (digit : c.isDigit = true) (digits : List Char) :
    Binary64.splitSign ((Binary64.signText negative).toList ++ c :: digits) = (negative, c :: digits) := by
  cases negative with
  | true => rfl
  | false =>
    change Binary64.splitSign (c :: digits) = _
    unfold Binary64.splitSign
    split
    · rename_i same
      cases same
      exact absurd digit (by decide)
    · rename_i same
      cases same
      exact absurd digit (by decide)
    · rfl

/-- What begins with a sign or a digit is no truth value. -/
theorem truth?_signText (negative : Bool) {c : Char} (digit : c.isDigit = true) (digits : List Char) :
    truth? ((Binary64.signText negative).toList ++ c :: digits) = none := by
  have other : c ≠ 't' ∧ c ≠ 'f' := by
    constructor <;> rintro rfl <;> exact absurd digit (by decide)
  cases negative <;> simp [truth?, Binary64.signText, other]

/-! ## Integers -/

theorem toList_toString (n : Int) : (toString n).toList =
    (Binary64.signText (n < 0)).toList ++ Nat.toDigits 10 n.natAbs := by
  cases n with
  | ofNat n =>
    change (Nat.repr n).toList = _
    rw [Nat.repr_eq_ofList_toDigits]
    simp [Binary64.signText]
  | negSucc n =>
    change ("-" ++ Nat.repr (n + 1)).toList = _
    rw [Nat.repr_eq_ofList_toDigits]
    simp [Binary64.signText, Int.negSucc_lt_zero]

theorem scalar_integer {n : Int} (fits : fitsSigned n = true) :
    scalar (toString n).toList = some (.integer n) := by
  have all : ∀ c ∈ Nat.toDigits 10 n.natAbs, c.isDigit = true := fun c => isDigit_of_mem_toDigits
  have nonempty : Nat.toDigits 10 n.natAbs ≠ [] := Nat.toDigits_ne_nil
  have value : Nat.ofDigitChars 10 (Nat.toDigits 10 n.natAbs) 0 = n.natAbs :=
    Nat.ofDigitChars_toDigits (by decide) (by decide)
  have first : (Nat.toDigits 10 n.natAbs).length = 1 ∨
      (Nat.toDigits 10 n.natAbs).head? ≠ some '0' := by
    by_cases zero : n.natAbs = 0
    · rw [zero]
      exact .inl rfl
    · exact .inr (head?_toDigits zero)
  have whole := wholeDigits?_of_digits all nonempty first
  rw [toList_toString]
  cases digits : Nat.toDigits 10 n.natAbs with
  | nil => exact absurd digits nonempty
  | cons c digits' =>
    rw [digits] at all whole value
    have digit := all c List.mem_cons_self
    have signed : (if (n < 0 : Bool) then -(n.natAbs : Int) else n.natAbs) = n := by
      by_cases negative : n < 0
      · simp only [negative, decide_true, if_true]
        omega
      · simp only [negative, decide_false, Bool.false_eq_true, if_false]
        omega
    have read : decimalInteger? ((Binary64.signText (n < 0)).toList ++ c :: digits') =
        some (.integer n) := by
      simp only [decimalInteger?, splitSign_signText _ digit, whole, bind, Option.bind, value, signed,
        ofInteger?, fits, if_true]
    rw [scalar, truth?_signText _ digit, read]
    rfl

/-! ## Floats -/

/-- A finite magnitude is written with digits on both sides of a point. -/
theorem exists_digits {m : Magnitude} (finite : m ≠ .infinity) : ∃ whole fraction,
    (Binary64.magnitudeText m ".0").toList = whole ++ '.' :: fraction ∧
    ((∀ c ∈ whole, c.isDigit = true) ∧ whole ≠ [] ∧ (whole.length = 1 ∨ whole.head? ≠ some '0')) ∧
    ((∀ c ∈ fraction, c.isDigit = true) ∧ fraction ≠ []) ∧
    (Decimal.ofParts whole fraction 0).nearest = m := by
  by_cases zero : m = .zero
  · subst zero
    exact ⟨['0'], ['0'], rfl, by simp, by simp, by decide +kernel⟩
  · have written : (Binary64.magnitudeText m ".0").toList =
        m.shortest.whole ++ '.' :: m.shortest.fraction := by
      rw [Binary64.magnitudeText, if_neg finite, if_neg zero, ← Decimal.positional_eq]
      split_ifs <;> simp
    have positive : m.shortest.coefficient ≠ 0 := by
      intro none
      have same := m.nearest_shortest
      rw [Decimal.nearest, if_pos none] at same
      exact zero same.symm
    exact ⟨_, _, written,
      ⟨fun c => Decimal.isDigit_of_mem_whole, m.shortest.whole_ne_nil, Decimal.head?_whole positive⟩,
      ⟨fun c => Decimal.isDigit_of_mem_fraction, m.shortest.fraction_ne_nil⟩,
      (Decimal.nearest_digits _).trans m.nearest_shortest⟩

theorem basedInteger?_eq_none {cs : List Char} (plain : ∀ c ∈ cs, c ∉ ['x', 'o', 'b']) :
    basedInteger? cs = none := by
  unfold basedInteger?
  split
  · exact absurd (by decide) (plain 'x' (by simp))
  · exact absurd (by decide) (plain 'o' (by simp))
  · exact absurd (by decide) (plain 'b' (by simp))
  · rfl

section
variable {whole fraction : List Char} (negative : Bool) {m : Magnitude}
  (before : (∀ c ∈ whole, c.isDigit = true) ∧ whole ≠ [] ∧
    (whole.length = 1 ∨ whole.head? ≠ some '0'))
  (after : (∀ c ∈ fraction, c.isDigit = true) ∧ fraction ≠ [])
include before

theorem splitSign_point : Binary64.splitSign
    ((Binary64.signText negative).toList ++ (whole ++ '.' :: fraction)) =
      (negative, whole ++ '.' :: fraction) := by
  cases digits : whole with
  | nil => exact absurd digits before.2.1
  | cons c more =>
    have digit := before.1 c (by simp [digits])
    exact splitSign_signText negative digit (more ++ '.' :: fraction)

theorem truth?_point :
    truth? ((Binary64.signText negative).toList ++ (whole ++ '.' :: fraction)) = none := by
  cases digits : whole with
  | nil => exact absurd digits before.2.1
  | cons c more =>
    have digit := before.1 c (by simp [digits])
    exact truth?_signText negative digit (more ++ '.' :: fraction)

include after

/-- The characters of a number with a point are digits but for the point. -/
theorem digit_or_point {c : Char} (mem : c ∈ whole ++ '.' :: fraction) : c.isDigit = true ∨ c = '.' := by
  rcases List.mem_append.mp mem with first | later
  · exact .inl (before.1 c first)
  · rcases List.mem_cons.mp later with point | last
    · exact .inr point
    · exact .inl (after.1 c last)

theorem decimalInteger?_point :
    decimalInteger? ((Binary64.signText negative).toList ++ (whole ++ '.' :: fraction)) = none := by
  have plain : '_' ∉ whole ++ '.' :: fraction := by
    intro mem
    rcases digit_or_point before after mem with digit | point
    · exact absurd digit (by decide)
    · exact absurd point (by decide)
  have ungrouped : grouped? Char.isDigit (whole ++ '.' :: fraction) = none := by
    rw [grouped?_of_plain plain, if_neg]
    intro digits
    have point : '.'.isDigit = false := rfl
    simp [point] at digits
  simp [decimalInteger?, splitSign_point negative before, wholeDigits?, ungrouped]

theorem decimalFloat?_point (value : (Decimal.ofParts whole fraction 0).nearest = m)
    (finite : m ≠ .infinity) :
    decimalFloat? ((Binary64.signText negative).toList ++ (whole ++ '.' :: fraction)) =
      some (.float (.signed negative m)) := by
  have unmarked : ∀ c ∈ whole ++ '.' :: fraction, (!isExponentMark c) = true := by
    intro c mem
    rcases digit_or_point before after mem with digit | rfl
    · have other : c ≠ 'e' ∧ c ≠ 'E' := by
        constructor <;> rintro rfl <;> exact absurd digit (by decide)
      simp [isExponentMark, other]
    · rfl
  have ended : Stops (fun c => !isExponentMark c) [] := nofun
  have mantissa := takeWhile_append unmarked ended
  have power := dropWhile_append unmarked ended
  rw [List.append_nil] at mantissa power
  have inside : ∀ c ∈ whole, decide (c ≠ '.') = true := by
    intro c mem
    refine decide_eq_true ?_
    rintro rfl
    exact absurd (before.1 _ mem) (by decide)
  have stops : Stops (fun c => decide (c ≠ '.')) ('.' :: fraction) := stops_cons rfl
  have wholes := takeWhile_append inside stops
  have places := dropWhile_append inside stops
  have first := wholeDigits?_of_digits before.1 before.2.1 before.2.2
  have last := grouped?_of_digits after.1 after.2
  have bounded : ¬ Binary64.signed negative m = .signed false .infinity := by
    intro same
    cases same
    exact finite rfl
  simp only [decimalFloat?, splitSign_point negative before, mantissa, power, wholes, places,
    first, last, bind, Option.bind, Option.map, Option.getD]
  simp [Binary64.ofDecimal, value, bounded]

end

theorem mem_signText {negative : Bool} {c : Char} (mem : c ∈ (Binary64.signText negative).toList) :
    c = '-' := by
  cases negative
  · cases mem
  · simpa [Binary64.signText] using mem

theorem scalar_float (x : Binary64) : scalar x.documentText.toList = some (.float x) := by
  cases x with
  | nan => rfl
  | signed negative m =>
    by_cases infinite : m = .infinity
    · subst infinite
      cases negative <;> rfl
    · obtain ⟨whole, fraction, written, before, after, value⟩ := exists_digits infinite
      have text : (Binary64.signed negative m).documentText.toList =
          (Binary64.signText negative).toList ++ (whole ++ '.' :: fraction) := by
        rw [Binary64.documentText, String.toList_append, written]
      have unbased : basedInteger? ((Binary64.signText negative).toList ++
          (whole ++ '.' :: fraction)) = none := by
        refine basedInteger?_eq_none fun c mem base => ?_
        rcases List.mem_append.mp mem with sign | body
        · rw [mem_signText sign] at base
          exact absurd base (by decide)
        · rcases digit_or_point before after body with digit | rfl
          · have letters : ['x', 'o', 'b'].any Char.isDigit = false := rfl
            exact absurd digit (List.any_eq_false.mp letters c base)
          · exact absurd base (by decide)
      rw [text, scalar, truth?_point negative before, decimalInteger?_point negative before after,
        unbased, decimalFloat?_point negative before after value infinite]
      rfl

/-! ## Values -/

/-- What may come after a value: the end of a line, or the comma or bracket after an item. -/
def Closed (rest : List Char) : Prop := ∃ c more, rest = c :: more ∧ (c = '\n' ∨ c = ',' ∨ c = ']')

theorem Closed.stops {p : Char → Bool} {rest : List Char} (closed : Closed rest)
    (none : ['\n', ',', ']'].any p = false) : Stops p rest := by
  obtain ⟨c, more, rfl, kind⟩ := closed
  have other := List.any_eq_false.mp none c (by simpa using kind)
  exact stops_cons (by simpa using other)

theorem readScalar_append {text rest : List Char} {d : Document} (closed : Closed rest)
    (run : ∀ c ∈ text, isScalarChar c = true) (read : scalar text = some d) :
    readScalar (text ++ rest) = some (d, rest) := by
  have stops : Stops isScalarChar rest := closed.stops rfl
  simp only [readScalar, takeWhile_append run stops, dropWhile_append run stops, read]
  obtain ⟨c, more, rfl, kind⟩ := closed
  split
  · rename_i same
    cases same
    exact absurd kind (by decide)
  · rfl

/-- Truth values, integers of 64 bits and floats. -/
def IsScalar : Document → Prop
  | .boolean _ => True
  | .integer n => fitsSigned n = true
  | .float _ => True
  | _ => False

theorem isScalarChar_of_isDigit {c : Char} (digit : c.isDigit = true) : isScalarChar c = true := by
  simp [isScalarChar, Char.isAlphanum, digit]

theorem isScalarChar_of_signText {negative : Bool} {c : Char}
    (mem : c ∈ (Binary64.signText negative).toList) : isScalarChar c = true := by
  rw [mem_signText mem]
  rfl

/-- A scalar is one run of characters that reads back. -/
theorem IsScalar.reads {d : Document} (single : IsScalar d) :
    (∀ c ∈ (valueText d).toList, isScalarChar c = true) ∧
      scalar (valueText d).toList = some d := by
  cases d with
  | boolean b =>
    rw [valueText]
    cases b
    · exact ⟨List.all_eq_true.mp (by decide), rfl⟩
    · exact ⟨List.all_eq_true.mp (by decide), rfl⟩
  | integer n =>
    rw [valueText]
    refine ⟨fun c mem => ?_, scalar_integer single⟩
    rw [toList_toString] at mem
    rcases List.mem_append.mp mem with sign | digit
    · exact isScalarChar_of_signText sign
    · exact isScalarChar_of_isDigit (isDigit_of_mem_toDigits digit)
  | float x =>
    rw [valueText]
    refine ⟨fun c mem => ?_, scalar_float x⟩
    cases x with
    | nan => exact List.all_eq_true.mp (by decide : "nan".toList.all isScalarChar = true) c mem
    | signed negative m =>
      by_cases infinite : m = .infinity
      · subst infinite
        cases negative
        · exact List.all_eq_true.mp (by decide : "inf".toList.all isScalarChar = true) c mem
        · exact List.all_eq_true.mp (by decide : "-inf".toList.all isScalarChar = true) c mem
      · obtain ⟨whole, fraction, written, before, after, -⟩ := exists_digits infinite
        rw [Binary64.documentText, String.toList_append, written] at mem
        rcases List.mem_append.mp mem with sign | body
        · exact isScalarChar_of_signText sign
        · rcases digit_or_point before after body with digit | rfl
          · exact isScalarChar_of_isDigit digit
          · rfl
  | _ => cases single

end Autoscaler.Toml
