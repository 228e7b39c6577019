import SupervisedWorker.Number.Numeral
import SupervisedWorker.Settings.Tree

/-!
# Keys as paths

A key may name a place deep in the tree: names of ASCII letters, digits, underscores and hyphens
with dots between them, and places of lists in brackets. A key that is no such path is the name of
one entry of the whole tree.
-/

namespace SupervisedWorker

namespace Settings

namespace KeyPath

/-- A character of a name. -/
def isNameChar (c : Char) : Bool := c.isAlphanum || c == '_' || c == '-'

/-- A place of a list that fits 64 bits with a sign. -/
def place (s : List Char) : Option Int :=
  let isSpace := fun c => c == ' ' || c == '\t'
  let s := ((s.dropWhile isSpace).reverse.dropWhile isSpace).reverse
  let n := match s with
    | '-' :: ds => (Numeral.natural ds).map fun n => -(n : Int)
    | ds => (Numeral.natural ds).map Int.ofNat
  n.bind Numeral.signed64

/-- Reads what follows the first name. Every step takes a character at least. -/
def steps (s : List Char) : Option (List PathStep) :=
  match s with
  | [] => some []
  | '.' :: rest =>
    let name := rest.takeWhile isNameChar
    if name = [] then none
    else (steps (rest.drop name.length)).map (.key (String.ofList name) :: ·)
  | '[' :: rest =>
    let inside := rest.takeWhile (· != ']')
    match rest.drop inside.length with
    | ']' :: _ => do
      let n ← place inside
      let rest ← steps (rest.drop (inside.length + 1))
      return .index n :: rest
    | _ => none
  | _ => none
termination_by s.length
decreasing_by all_goals (simp only [List.length_cons, List.length_drop]; omega)

/-- The path that a key stands for, if it stands for one. -/
def parse? (key : String) : Option (List PathStep) :=
  let s := key.toList
  let name := s.takeWhile isNameChar
  if name = [] then none
  else (steps (s.drop name.length)).map (.key (String.ofList name) :: ·)

/-- The path of any key. -/
def ofKey (key : String) : List PathStep := (parse? key).getD [.key key]

end KeyPath

end Settings

end SupervisedWorker
