/-!
# Scanned text

What comes of reading a text off the front of some characters: the text and the characters after it,
or nothing when there is no such text.
-/

namespace Autoscaler.Text

/-- A text that was read, and the characters after it. -/
abbrev Scanned := Option (List Char × List Char)

/-- Puts a character in front of a text that was read. -/
def Scanned.cons (c : Char) (read : Scanned) : Scanned :=
  read.map fun (text, rest) => (c :: text, rest)

end Autoscaler.Text
