import SupervisedWorker.Toml.Draft
import SupervisedWorker.Toml.Text

/-!
# Reading TOML

A document is a sequence of lines: blank ones, headers, and keys with values; a value in brackets
may span several lines. Values in brackets and braces nest at most 80 deep, and a dotted key has at
most 80 parts.
-/

namespace SupervisedWorker

namespace Toml

/-- How deep brackets and braces nest. -/
def nestingLimit : Nat := 80

/-- Drops spaces and tabs. -/
def dropSpace (s : List Char) : List Char := s.dropWhile isSpace

/-- A character that may stand in a comment. -/
def inComment (c : Char) : Bool := !isControl c

/-- Drops a comment, if there is one, but not the line break that ends it. -/
def dropComment : List Char → List Char
  | '#' :: rest => rest.dropWhile inComment
  | s => s

/-- What follows the end of a line; blanks and a comment may stand before it. -/
def lineEnd (s : List Char) : Option (List Char) :=
  match dropComment (dropSpace s) with
  | [] => some []
  | s => lineBreak s

/-- Drops blanks, comments and line breaks. -/
def dropFill (s : List Char) : List Char :=
  let s' := dropComment (dropSpace s)
  match lineBreak s' with
  | some rest => if rest.length < s.length then dropFill rest else rest
  | none => s'
termination_by s.length

/-! ## Keys -/

/-- A character of a key without quotes. -/
def isBareChar (c : Char) : Bool := c.isAlphanum || c == '_' || c == '-'

/-- Reads one key. -/
def readSimpleKey (s : List Char) : Option (String × List Char) :=
  match s with
  | '"' :: rest => (readBasic rest).map fun (k, rest) => (String.ofList k, rest)
  | '\'' :: rest => (readLiteral rest).map fun (k, rest) => (String.ofList k, rest)
  | s =>
    let (k, rest) := s.span isBareChar
    if k = [] then none else some (String.ofList k, rest)

/-- Reads keys with dots between them, at most `room` behind the first. -/
def readKeys : (room : Nat) → List Char → Option (List String × List Char)
  | room, s => do
    let (key, rest) ← readSimpleKey (dropSpace s)
    match dropSpace rest with
    | '.' :: rest =>
      match room with
      | 0 => none
      | room + 1 =>
        let (keys, rest) ← readKeys room rest
        return (key :: keys, rest)
    | rest => return ([key], rest)

/-- Reads a key, which may be dotted. -/
def readKey (s : List Char) : Option (List String × List Char) := readKeys (nestingLimit - 1) s

/-- Reads a key and the sign behind it. -/
def readAssigned (s : List Char) : Option (List String × List Char) := do
  let (key, rest) ← readKey s
  match rest with
  | '=' :: rest => return (key, dropSpace rest)
  | _ => none

/-! ## Values -/

/-- Reads items with commas between them, and perhaps behind the last, up to the closing bracket.
An item that is not shorter than nothing is refused, so the reader comes to an end. -/
def readItems (read : List Char → Option (Value × List Char)) (s : List Char) :
    Option (List Value × List Char) :=
  match dropFill s with
  | ']' :: rest => some ([], rest)
  | start =>
    match read start with
    | none => none
    | some (v, rest) =>
      match dropFill rest with
      | ']' :: rest => some ([v], rest)
      | ',' :: rest =>
        if rest.length < s.length then
          (readItems read rest).map fun (vs, rest) => (v :: vs, rest)
        else none
      | _ => none
termination_by s.length

/-- Reads the entries of a table in braces, of which there is at least one, up to the brace that
closes it. -/
def readPairs (read : List Char → Option (Value × List Char)) (entries : Draft.Entries)
    (s : List Char) : Option (Draft.Entries × List Char) :=
  match readAssigned s with
  | none => none
  | some (key, rest) =>
    match read rest with
    | none => none
    | some (v, rest) =>
      match Draft.assign v key entries with
      | none => none
      | some entries =>
        match dropSpace rest with
        | '\x7d' :: rest => some (entries, rest)
        | ',' :: rest => if rest.length < s.length then readPairs read entries rest else none
        | _ => none
termination_by s.length

/-- Reads a value; brackets and braces in it may nest `room` deep. -/
def readValue : (room : Nat) → List Char → Option (Value × List Char)
  | room, s =>
    match s with
    | '[' :: rest =>
      match room with
      | 0 => none
      | room + 1 =>
        (readItems (fun s => readValue room s) rest).map fun (vs, rest) => (.list vs, rest)
    | '\x7b' :: rest =>
      match room with
      | 0 => none
      | room + 1 =>
        match dropSpace rest with
        | '\x7d' :: rest => some (.table [], rest)
        | rest =>
          (readPairs (fun s => readValue room s) [] rest).map fun (entries, rest) =>
            (.table (Draft.finishEntries entries), rest)
    | '"' :: _ => (readText s).map fun (t, rest) => (.text (String.ofList t), rest)
    | '\'' :: _ => (readText s).map fun (t, rest) => (.text (String.ofList t), rest)
    | s => readScalar s

/-! ## Lines -/

/-- The table that the last header opened, and all tables. -/
structure Progress where
  header : List String
  entries : Draft.Entries
deriving Repr, Inhabited

/-- Reads the key of a header and the brackets that close it. -/
def readHeaderKey (close s : List Char) : Option (List String × String × List Char) := do
  let (key, rest) ← readKey s
  if close.isPrefixOf rest then
    let last ← key.getLast?
    return (key.dropLast, last, rest.drop close.length)
  else none

/-- Reads one line up to its end. -/
def readLine (p : Progress) (s : List Char) : Option (Progress × List Char) :=
  match dropSpace s with
  | '[' :: '[' :: rest => do
    let (path, last, rest) ← readHeaderKey [']', ']'] rest
    let entries ← Draft.under (Draft.openElement last) path p.entries
    return (⟨path ++ [last], entries⟩, rest)
  | '[' :: rest => do
    let (path, last, rest) ← readHeaderKey [']'] rest
    let entries ← Draft.under (Draft.openTable last) path p.entries
    return (⟨path ++ [last], entries⟩, rest)
  | [] => some (p, [])
  | c :: rest =>
    if c == '#' || c == '\n' || c == '\r' then some (p, c :: rest)
    else do
      let (key, rest) ← readAssigned (c :: rest)
      let (v, rest) ← readValue nestingLimit rest
      let entries ← Draft.under (Draft.assign v key) p.header p.entries
      return (⟨p.header, entries⟩, rest)

/-- Reads all lines. -/
def readLines (p : Progress) (s : List Char) : Option Progress :=
  match readLine p s with
  | none => none
  | some (p, rest) =>
    match lineEnd rest with
    | none => none
    | some [] => some p
    | some (c :: rest) =>
      if (c :: rest).length < s.length then readLines p (c :: rest) else none
termination_by s.length

/-- Reads a document; a byte order mark may stand before it. -/
def read (s : List Char) : Option (List (String × Value)) :=
  let s := match s with
    | '\uFEFF' :: rest => rest
    | s => s
  (readLines ⟨[], []⟩ s).map fun p => Draft.finishEntries p.entries

end Toml

end SupervisedWorker
