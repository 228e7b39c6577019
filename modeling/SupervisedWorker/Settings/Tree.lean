import SupervisedWorker.Number.Binary64

/-!
# Trees of raw settings

Settings are gathered from several sources in one tree, later sources over earlier ones. A value is
set at the end of a path, and what stands in the way is replaced; a table that is set is merged into
the table that is there. A node remembers the source that it was taken from; a table or list that
only came to be because something was set in it has none.
-/

namespace SupervisedWorker

namespace Settings

/-- A raw value without parts. -/
inductive Scalar
  | boolean (b : Bool)
  | integer (n : Int)
  | decimal (x : Binary64)
  | text (s : String)
deriving DecidableEq, Repr, Inhabited

/-- A raw value, which may have parts. -/
inductive Tree
  /-- A place in a list that nothing was put in. -/
  | unset
  | scalar (origin : Option String) (value : Scalar)
  | list (origin : Option String) (items : List Tree)
  | table (origin : Option String) (entries : List (String × Tree))
deriving Repr, Inhabited

/-- One step into a tree. -/
inductive PathStep
  | key (name : String)
  /-- A place in a list; places below zero are counted from the end. -/
  | index (place : Int)
deriving DecidableEq, Repr

namespace Tree

/-- An empty table that belongs to no source. -/
def emptyTable : Tree := .table none []

/-- The entry of a key. -/
def child? (key : String) : Tree → Option Tree
  | .table _ entries => entries.lookup key
  | _ => none

/-- Replaces the entry of a key, or appends one. -/
def alterEntries (key : String) (change : Tree → Tree) : List (String × Tree) → List (String × Tree)
  | [] => [(key, change .unset)]
  | (k, t) :: rest =>
    if k = key then (k, change t) :: rest else (k, t) :: alterEntries key change rest

/-- Replaces the entry of a key of a table; anything else is first replaced by a table. -/
def alterKey (key : String) (change : Tree → Tree) : Tree → Tree
  | .table origin entries => .table origin (alterEntries key change entries)
  | _ => .table none [(key, change .unset)]

/-- The items of a list and where it is from. -/
def asList : Tree → Option String × List Tree
  | .list origin items => (origin, items)
  | _ => (none, [])

/-- Makes room for a place of a list: the list that has it, and the place counted from the start. A
list is prolonged at its end, or at its start for a place that lies before it. -/
def makeRoom (items : List Tree) (place : Int) : List Tree × Nat :=
  match place with
  | .ofNat n => (items ++ List.replicate (n + 1 - items.length) .unset, n)
  | .negSucc n =>
    (List.replicate (n + 1 - items.length) .unset ++ items, items.length - (n + 1))

/-- Replaces an item of a list; anything else is first replaced by a list. -/
def alterItem (place : Int) (change : Tree → Tree) (t : Tree) : Tree :=
  let (origin, items) := t.asList
  let (items, n) := makeRoom items place
  .list origin (items.modify n change)

/-- Changes the node at the end of a path. -/
def alter (change : Tree → Tree) : List PathStep → Tree → Tree
  | [], t => change t
  | .key name :: rest, t => alterKey name (alter change rest) t
  | .index place :: rest, t => alterItem place (alter change rest) t

/-- A table as it is, and an empty one for anything else. -/
def orEmptyTable : Tree → Tree
  | .table origin entries => .table origin entries
  | _ => emptyTable

mutual

/-- Puts a value in the place of another; a table is merged into the other. -/
def put : Tree → Tree → Tree
  | .table _ entries, old => putAll entries old.orEmptyTable
  | new, _ => new

/-- Puts all entries into a table. -/
def putAll : List (String × Tree) → Tree → Tree
  | [], t => t
  | (key, new) :: rest, t => putAll rest (t.alterKey key (put new))

end

/-- Sets a value at the end of a path. -/
def set (t : Tree) (path : List PathStep) (new : Tree) : Tree := t.alter (put new) path

end Tree

end Settings

end SupervisedWorker
