import SupervisedWorker.Toml.Scalar

/-!
# Texts in TOML

A text stands in quotes or apostrophes, one on one line and three over several lines. Between quotes
a backslash begins an escape; between apostrophes every character stands for itself. Controls other
than a tab must be escaped, line breaks in the forms over several lines apart.

All readers here start behind the opening mark and answer the text and what follows the closing one.
-/

namespace SupervisedWorker

namespace Toml

/-- A control character other than a tab. -/
def isControl (c : Char) : Bool := (c.toNat < 0x20 && c != '\t') || c.toNat = 0x7F

/-- The character of a code point written in hexadecimal digits. -/
def codePoint (ds : List Char) : Option Char :=
  let n := inBase 16 ds
  if ds.all isHexDigit && n.isValidChar then some (Char.ofNat n) else none

/-- What the letter of a short escape stands for. -/
def shortEscape : Char → Option Char
  | 'b' => some '\x08'
  | 't' => some '\t'
  | 'n' => some '\n'
  | 'f' => some '\x0C'
  | 'r' => some '\r'
  | '"' => some '"'
  | '\\' => some '\\'
  | _ => none

/-- Reads an escape behind its backslash. -/
def readEscape : List Char → Option (Char × List Char)
  | 'u' :: s => if 4 ≤ s.length then (codePoint (s.take 4)).map (·, s.drop 4) else none
  | 'U' :: s => if 8 ≤ s.length then (codePoint (s.take 8)).map (·, s.drop 8) else none
  | c :: s => (shortEscape c).map (·, s)
  | [] => none

/-- What an escape leaves is shorter. -/
theorem readEscape_shorter {s rest : List Char} {c : Char} (h : readEscape s = some (c, rest)) :
    rest.length < s.length := by
  unfold readEscape at h
  split at h
  · split at h <;> simp at h
    obtain ⟨_, _, _, rfl⟩ := h
    simp only [List.length_cons, List.length_drop]
    omega
  · split at h <;> simp at h
    obtain ⟨_, _, _, rfl⟩ := h
    simp only [List.length_cons, List.length_drop]
    omega
  · simp at h
    obtain ⟨_, _, _, rfl⟩ := h
    simp
  · simp at h

/-- Puts a character before a text that was read. -/
def before (c : Char) : Option (List Char × List Char) → Option (List Char × List Char)
  | some (text, rest) => some (c :: text, rest)
  | none => none

/-- Reads a text on one line up to its closing quote. -/
def readBasic (s : List Char) : Option (List Char × List Char) :=
  match s with
  | [] => none
  | '"' :: rest => some ([], rest)
  | '\\' :: rest =>
    match h : readEscape rest with
    | some (c, rest) =>
      have := readEscape_shorter h
      before c (readBasic rest)
    | none => none
  | c :: rest => if isControl c then none else before c (readBasic rest)
termination_by s.length
decreasing_by all_goals (simp only [List.length_cons]; omega)

/-- Reads a text on one line up to its closing apostrophe. -/
def readLiteral : List Char → Option (List Char × List Char)
  | [] => none
  | c :: rest =>
    if c == '\'' then some ([], rest)
    else if isControl c then none
    else before c (readLiteral rest)

/-- A line break is a line feed with or without a carriage return before it. -/
def lineBreak : List Char → Option (List Char)
  | '\n' :: rest => some rest
  | '\r' :: '\n' :: rest => some rest
  | _ => none

/-- Drops the line break behind the opening mark. -/
def dropFirstBreak (s : List Char) : List Char := (lineBreak s).getD s

/-- Spaces and tabs. -/
def isSpace (c : Char) : Bool := c == ' ' || c == '\t'

/-- Spaces, tabs and line breaks. -/
def dropLayout : List Char → List Char
  | [] => []
  | c :: rest =>
    if isSpace c || c == '\n' then dropLayout rest
    else if c == '\r' && rest.head? = some '\n' then dropLayout rest
    else c :: rest

/-- Dropping layout leaves nothing new. -/
theorem dropLayout_length_le (s : List Char) : (dropLayout s).length ≤ s.length := by
  induction s with
  | nil => simp [dropLayout]
  | cons c rest ih =>
    unfold dropLayout
    split
    · simp; omega
    · split
      · simp; omega
      · simp

/-- The closing mark of three and up to two more of the same that belong to the text: those, and
what follows the mark. -/
def closing (mark : Char) : List Char → Option (List Char × List Char)
  | a :: b :: c :: d :: e :: rest =>
    if [a, b, c] ≠ [mark, mark, mark] then none
    else if d ≠ mark then some ([], d :: e :: rest)
    else if e ≠ mark then some ([mark], e :: rest)
    else some ([mark, mark], rest)
  | [a, b, c, d] =>
    if [a, b, c] ≠ [mark, mark, mark] then none
    else if d ≠ mark then some ([], [d])
    else some ([mark], [])
  | [a, b, c] => if [a, b, c] ≠ [mark, mark, mark] then none else some ([], [])
  | _ => none

/-- Reads a text over several lines up to its three closing quotes. A backslash at the end of a line
drops the layout behind it. -/
def readLongBasic (s : List Char) : Option (List Char × List Char) :=
  match closing '"' s with
  | some found => some found
  | none =>
    match s with
    | [] => none
    | '\\' :: rest =>
      match lineBreak (rest.dropWhile isSpace) with
      | some _ =>
        have := dropLayout_length_le rest
        readLongBasic (dropLayout rest)
      | none =>
        match h : readEscape rest with
        | some (c, rest) =>
          have := readEscape_shorter h
          before c (readLongBasic rest)
        | none => none
    | '\r' :: '\n' :: rest => before '\n' (readLongBasic rest)
    | c :: rest => if isControl c && c != '\n' then none else before c (readLongBasic rest)
termination_by s.length
decreasing_by all_goals (simp only [List.length_cons]; omega)

/-- Reads a text over several lines up to its three closing apostrophes. -/
def readLongLiteral (s : List Char) : Option (List Char × List Char) :=
  match closing '\'' s with
  | some found => some found
  | none =>
    match s with
    | [] => none
    | '\r' :: '\n' :: rest => before '\n' (readLongLiteral rest)
    | c :: rest => if isControl c && c != '\n' then none else before c (readLongLiteral rest)
termination_by s.length
decreasing_by all_goals (simp only [List.length_cons]; omega)

/-- Reads a text of any of the four forms from its opening mark on. -/
def readText : List Char → Option (List Char × List Char)
  | '"' :: '"' :: '"' :: rest => readLongBasic (dropFirstBreak rest)
  | '\'' :: '\'' :: '\'' :: rest => readLongLiteral (dropFirstBreak rest)
  | '"' :: rest => readBasic rest
  | '\'' :: rest => readLiteral rest
  | _ => none

end Toml

end SupervisedWorker
