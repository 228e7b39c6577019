import SupervisedWorker.Toml.Value

/-!
# Tables under construction

A document builds its tables piece by piece, and what may still be added to a table depends on how
the table came to be. A header opens a table once; it may pass through tables that exist already,
through the last element of a list of tables, and it brings missing tables into being. A dotted key
may add to tables that dotted keys made, and may pass through those that a header only passed. A
value that has been given is never touched again.
-/

namespace SupervisedWorker

namespace Toml

/-- How a table came to be. -/
inductive Standing
  /-- A header passed through it. -/
  | passed
  /-- A dotted key made it. -/
  | dotted
  /-- A header opened it. -/
  | opened
deriving DecidableEq, Repr, Inhabited

/-- A part of a document under construction. -/
inductive Draft
  /-- A value that is complete. -/
  | done (v : Value)
  | table (standing : Standing) (entries : List (String × Draft))
  /-- A list of tables, each opened by a header. -/
  | tables (elements : List (List (String × Draft)))
deriving Repr, Inhabited

namespace Draft

/-- The keys of a table under construction, in the order in which they came. -/
abbrev Entries := List (String × Draft)

/-- Replaces the entry of a key, which may be missing, unless the change is refused. -/
def alter (key : String) (change : Option Draft → Option Draft) : Entries → Option Entries
  | [] => (change none).map fun d => [(key, d)]
  | (k, d) :: rest =>
    if k = key then (change (some d)).map fun d => (k, d) :: rest
    else (alter key change rest).map ((k, d) :: ·)

/-- Changes the last element. -/
def alterLast (change : Entries → Option Entries) : List Entries → Option (List Entries)
  | [] => none
  | [e] => (change e).map ([·])
  | e :: rest => (alterLast change rest).map (e :: ·)

/-- Changes the table that a header's keys lead to. -/
def under (change : Entries → Option Entries) : List String → Entries → Option Entries
  | [] => change
  | key :: path =>
    alter key fun
      | none => (under change path []).map (.table .passed)
      | some (.table standing entries) => (under change path entries).map (.table standing)
      | some (.tables elements) => (alterLast (under change path) elements).map .tables
      | some (.done _) => none

/-- Opens a table, once. -/
def openTable (key : String) : Entries → Option Entries :=
  alter key fun
    | none => some (.table .opened [])
    | some (.table .passed entries) => some (.table .opened entries)
    | some _ => none

/-- Opens one more element of a list of tables. -/
def openElement (key : String) : Entries → Option Entries :=
  alter key fun
    | none => some (.tables [[]])
    | some (.tables elements) => some (.tables (elements ++ [[]]))
    | some _ => none

/-- Gives a value to a key, which may be dotted. -/
def assign (v : Value) : List String → Entries → Option Entries
  | [] => fun _ => none
  | [key] =>
    alter key fun
      | none => some (.done v)
      | some _ => none
  | key :: next :: path =>
    alter key fun
      | none => (assign v (next :: path) []).map (.table .dotted)
      | some (.table .dotted entries) => (assign v (next :: path) entries).map (.table .dotted)
      | some (.table .passed entries) =>
        if path = [] then none
        else (assign v (next :: path) entries).map (.table .passed)
      | some _ => none

mutual

/-- The value that a part amounts to when the document is complete. -/
def finish : Draft → Value
  | .done v => v
  | .table _ entries => .table (finishEntries entries)
  | .tables elements => .list (finishElements elements)

/-- `finish` for the entries of a table. -/
def finishEntries : List (String × Draft) → List (String × Value)
  | [] => []
  | (key, d) :: rest => (key, finish d) :: finishEntries rest

/-- `finish` for a list of tables. -/
def finishElements : List (List (String × Draft)) → List Value
  | [] => []
  | e :: rest => .table (finishEntries e) :: finishElements rest

end

end Draft

end Toml

end SupervisedWorker
