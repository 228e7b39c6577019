import SupervisedWorker.Text.Ranges

/-!
# Blanks at the ends of a text

A blank is a character with the property White_Space. It is more than the four characters of
`Char.isWhitespace` and leaves out the zero-width characters.
-/

namespace SupervisedWorker.Text

/-- Code points with the property White_Space. -/
def blankRanges : Ranges :=
  [(0x09, 0x0D), (0x20, 0x20), (0x85, 0x85), (0xA0, 0xA0), (0x1680, 0x1680), (0x2000, 0x200A),
    (0x2028, 0x2029), (0x202F, 0x202F), (0x205F, 0x205F), (0x3000, 0x3000)]

/-- A character with the property White_Space. -/
def isBlank (c : Char) : Bool := blankRanges.contains c.toNat

/-- Drops at both ends the characters that satisfy `p`. -/
def strip (p : Char → Bool) (s : List Char) : List Char :=
  ((s.dropWhile p).reverse.dropWhile p).reverse

/-- Drops the blanks at both ends. -/
def trim (s : List Char) : List Char := strip isBlank s

/-- `trim` on strings. -/
def trimmed (s : String) : String := String.ofList (trim s.toList)

end SupervisedWorker.Text
