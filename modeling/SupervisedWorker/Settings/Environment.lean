import SupervisedWorker.Number.Numeral
import SupervisedWorker.Settings.KeyPath
import SupervisedWorker.Text.Lowercase
import SupervisedWorker.Text.Pieces

/-!
# Settings from the environment

A variable sets a value if its name begins with `WORKER__`, in any case. What follows, in lower
case and with a dot for every two underscores, is the key. The value is taken for a boolean, else
for an integer, else for a decimal fraction, else for a text; the list of services is split at its
commas instead.
-/

namespace SupervisedWorker

namespace Settings

namespace Environment

/-- The source's name in messages. -/
def origin : String := "the environment"

/-- How the names of variables that set something begin, in lower case. -/
def head : List Char := "worker__".toList

/-- Puts a dot for every two underscores, from the left. -/
def dots : List Char → List Char
  | '_' :: '_' :: s => '.' :: dots s
  | c :: s => c :: dots s
  | [] => []

/-- The key that a variable sets. -/
def key? (name : String) : Option String :=
  let lowered := (Text.lower name).toList
  if head.isPrefixOf lowered then some (String.ofList (dots (lowered.drop head.length))) else none

/-- An integer of 64 bits with a sign. -/
def integer? (s : List Char) : Option Int :=
  (Numeral.whole s).bind Numeral.signed64

/-- The key whose texts are lists. -/
def listKey : String := "general.services"

/-- What a text sets its key to. -/
def guess (key value : String) : Tree :=
  let s := value.toList
  let lowered := Text.lower value
  let scalar := Tree.scalar (some origin)
  if lowered = "true" then scalar (.boolean true)
  else if lowered = "false" then scalar (.boolean false)
  else
    match integer? s with
    | some n => scalar (.integer n)
    | none =>
      match Numeral.decimal s with
      | some x => scalar (.decimal x)
      | none =>
        if key = listKey then
          let pieces := Text.pieces (· == ',') s
          .list (some origin) (pieces.map fun piece => scalar (.text (String.ofList piece)))
        else scalar (.text value)

/-- Sets everything that the environment sets, variable after variable. -/
def apply (environment : List (String × String)) (t : Tree) : Tree :=
  environment.foldl
    (fun t (name, value) =>
      match key? name with
      | some key => t.set (KeyPath.ofKey key) (guess key value)
      | none => t)
    t

end Environment

end Settings

end SupervisedWorker
