import SupervisedWorker.Text.Blank
import SupervisedWorker.Text.Pieces

/-!
# Lists of service names

A list of services is written as names with spaces and commas between them, in any number. A name
may be in quotes, and the whole may be introduced by `services=`. A name that comes again is the
same service and counts once.
-/

namespace SupervisedWorker

namespace ServiceList

/-- Spaces and commas stand between names; other blanks do not. -/
def isSeparator (c : Char) : Bool := c == ' ' || c == ','

/-- What may introduce a list. -/
def introduction : List Char := "services=".toList

/-- Drops the introduction once. -/
def dropIntroduction (s : List Char) : List Char :=
  if introduction.isPrefixOf s then s.drop introduction.length else s

/-- A piece without the quotes at its ends and then without the blanks at its ends. -/
def cleanName (piece : List Char) : List Char := Text.trim (Text.strip (· == '"') piece)

/-- Keeps the first of equal elements. -/
def keepFirst {α : Type} [DecidableEq α] : List α → List α
  | [] => []
  | a :: l => a :: (keepFirst l).filter (· ≠ a)

/-- The names in a written list. -/
def parseChars (raw : List Char) : List (List Char) :=
  let pieces := Text.pieces isSeparator (dropIntroduction (Text.trim raw))
  keepFirst ((pieces.map cleanName).filter (· ≠ []))

/-- `parseChars` on strings. -/
def parse (raw : String) : List String := (parseChars raw.toList).map String.ofList

end ServiceList

end SupervisedWorker
