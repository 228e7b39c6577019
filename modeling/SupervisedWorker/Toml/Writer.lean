import SupervisedWorker.Toml.Text

/-!
# Writing TOML

A text is written in the plainest form that holds it: in quotes if nothing in it needs an escape, in
apostrophes if there is none in it, over several lines if that spares escapes, and otherwise with
escapes. A list of two or more texts has a line for each.
-/

namespace SupervisedWorker

namespace Toml

/-! ## Texts -/

/-- A character that is written as it is whatever surrounds it. -/
def isPlain (c : Char) : Bool := c.isAlphanum || "_-./ :".toList.contains c

/-- The length of the longest run of a character, given the length of the run that `s` continues. -/
def longestRun (mark : Char) : (current : Nat) → List Char → Nat
  | current, [] => current
  | current, c :: s =>
    if c == mark then longestRun mark (current + 1) s else max current (longestRun mark 0 s)

/-- Capital hexadecimal digits, four at least. -/
def unicodeEscape (n : Nat) : List Char :=
  let ds := (Nat.toDigits 16 n).map Char.toUpper
  ['\\', 'u'] ++ List.replicate (4 - ds.length) '0' ++ ds

/-- A character between quotes; quotes and line breaks are left to the form. -/
def escaped (c : Char) : List Char :=
  match c with
  | '\x08' => ['\\', 'b']
  | '\t' => ['\\', 't']
  | '\x0C' => ['\\', 'f']
  | '\r' => ['\\', 'r']
  | '\\' => ['\\', '\\']
  | c => if isControl c then unicodeEscape c.toNat else [c]

/-- The inside of a text in quotes on one line. -/
def basicBody : List Char → List Char
  | [] => []
  | c :: s =>
    (if c == '"' then ['\\', '"'] else if c == '\n' then ['\\', 'n'] else escaped c) ++ basicBody s

/-- The inside of a text in quotes over several lines, behind `quotes` quotes in a row: only the
third of them is escaped. -/
def longBasicBody : (quotes : Nat) → List Char → List Char
  | _, [] => []
  | quotes, c :: s =>
    if c == '"' then
      if quotes < 2 then '"' :: longBasicBody (quotes + 1) s
      else '\\' :: '"' :: longBasicBody 0 s
    else if c == '\n' then '\n' :: longBasicBody 0 s
    else escaped c ++ longBasicBody 0 s

/-- The forms of a written text. -/
inductive TextForm
  | basic
  | literal
  | longBasic
  | longLiteral
deriving DecidableEq, Repr

/-- The form that suits a text. -/
def TextForm.of (s : List Char) : TextForm :=
  let codes := s.any fun c => isControl c && c != '\n'
  let backslash := s.contains '\\'
  let lines := s.contains '\n'
  let apostrophes := longestRun '\'' 0 s
  let quotes := longestRun '"' 0 s
  if !codes && !backslash && !lines && quotes == 0 then .basic
  else if !codes && !lines && apostrophes == 0 then .literal
  else if !codes && !backslash && quotes ≤ 2 then .longBasic
  else if !codes && apostrophes ≤ 2 then .longLiteral
  else if lines then .longBasic
  else .basic

/-- A text over several lines begins on a line of its own if it has line breaks. -/
def firstBreak (s : List Char) : List Char := if s.contains '\n' then ['\n'] else []

/-- A written text. -/
def writeText (s : List Char) : List Char :=
  if s.all isPlain then '"' :: s ++ ['"']
  else
    match TextForm.of s with
    | .basic => '"' :: basicBody s ++ ['"']
    | .literal => '\'' :: s ++ ['\'']
    | .longBasic => ['"', '"', '"'] ++ firstBreak s ++ longBasicBody 0 s ++ ['"', '"', '"']
    | .longLiteral => ['\'', '\'', '\''] ++ firstBreak s ++ s ++ ['\'', '\'', '\'']

/-! ## Documents -/

/-- What a key is written with. -/
inductive Written
  | number (n : Nat)
  | boolean (b : Bool)
  | text (s : String)
  | texts (items : List String)
deriving DecidableEq, Repr

/-- A written list of texts. -/
def writeTexts : List String → List Char
  | [] => ['[', ']']
  | [s] => '[' :: writeText s.toList ++ [']']
  | items =>
    ['[', '\n'] ++ (items.flatMap fun s => "    ".toList ++ writeText s.toList ++ [',', '\n'])
      ++ [']']

/-- A written value. -/
def Written.chars : Written → List Char
  | .number n => Nat.toDigits 10 n
  | .boolean b => if b then "true".toList else "false".toList
  | .text s => writeText s.toList
  | .texts items => writeTexts items

/-- A header and the lines below it. -/
structure Section where
  name : String
  entries : List (String × Written)
deriving DecidableEq, Repr

/-- A written section. -/
def Section.chars (t : Section) : List Char :=
  '[' :: t.name.toList ++ [']', '\n']
    ++ t.entries.flatMap fun (key, v) => key.toList ++ " = ".toList ++ v.chars ++ ['\n']

/-- Sections with a blank line between them. -/
def write (sections : List Section) : List Char :=
  List.intercalate ['\n'] (sections.map Section.chars)

end Toml

end SupervisedWorker
