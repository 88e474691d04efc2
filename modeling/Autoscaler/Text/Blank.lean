/-!
# Blank characters

Which characters count as white space, and how text loses them at both ends.
-/

namespace Autoscaler.Text

/-- Exactly the characters with the White_Space property. -/
def isBlank (c : Char) : Bool :=
  let n := c.toNat
  (0x9 ≤ n && n ≤ 0xd) || n == 0x20 || n == 0x85 || n == 0xa0 || n == 0x1680 ||
    (0x2000 ≤ n && n ≤ 0x200a) || n == 0x2028 || n == 0x2029 || n == 0x202f || n == 0x205f ||
    n == 0x3000

/-- The characters of a word without the blank ones at either end. -/
def trimmed (cs : List Char) : List Char :=
  ((cs.dropWhile isBlank).reverse.dropWhile isBlank).reverse

private theorem dropWhile_dropWhile (cs : List Char) :
    (cs.dropWhile isBlank).dropWhile isBlank = cs.dropWhile isBlank := by
  induction cs with
  | nil => rfl
  | cons c rest ih =>
    by_cases blank : isBlank c = true
    · simpa [List.dropWhile_cons, blank] using ih
    · simp [blank]

/-- What is trimmed has no blanks left to lose. -/
theorem trimmed_trimmed (cs : List Char) : trimmed (trimmed cs) = trimmed cs := by
  have front : (trimmed cs).dropWhile isBlank = trimmed cs := by
    obtain ⟨lost, split⟩ := List.dropWhile_suffix isBlank (l := (cs.dropWhile isBlank).reverse)
    have whole : trimmed cs ++ lost.reverse = cs.dropWhile isBlank := by
      rw [trimmed, ← List.reverse_append, split, List.reverse_reverse]
    cases shape : trimmed cs with
    | nil => rfl
    | cons c rest =>
      have stable := dropWhile_dropWhile cs
      rw [← whole, shape] at stable
      by_cases blank : isBlank c = true
      · rw [List.cons_append, List.dropWhile_cons, if_pos blank] at stable
        have shorter := (List.dropWhile_suffix isBlank (l := rest ++ lost.reverse)).length_le
        rw [stable] at shorter
        simp only [List.length_cons] at shorter
        omega
      · simp [blank]
  rw [trimmed, front]
  simp only [trimmed, List.reverse_reverse, dropWhile_dropWhile]

/-- A text without the blank characters at either end. -/
def trim (s : String) : String := String.ofList (trimmed s.toList)

theorem trim_trim (s : String) : trim (trim s) = trim s := by
  simp [trim, trimmed_trimmed]

/-- Nothing but blank characters, or nothing at all. -/
def isBlankText (s : String) : Bool := s.toList.all isBlank

end Autoscaler.Text
