import SupervisedWorker.Files.System
import SupervisedWorker.Text.Bytes
import SupervisedWorker.Text.Pieces

/-!
# Directory trees and paths in them

A path leads from directory to directory. An absolute path starts at the topmost directory, and any
other one at the directory in which the worker stands. Links on the way are followed, forty at most;
whether a link at the end of the path is followed depends on the call. The target of a link is a path
that starts, unless it is absolute, at the directory that holds the link. The parent of the topmost
directory is that directory itself.
-/

namespace SupervisedWorker

/-- Something in a directory. -/
inductive FileEntry
  /-- A file, the number by which it is known while it is open, when it was last changed, and what
  it holds. -/
  | file (id : Nat) (modified : Int) (content : String)
  | link (target : String)
  | directory (entries : List (FileName × FileEntry))
deriving Repr, Inhabited

namespace FileTree

/-- What a directory holds, the oldest entry first. -/
abbrev Entries := List (FileName × FileEntry)

/-- What the directory holds that the names lead to. -/
def directory? : List FileName → Entries → Option Entries
  | [], entries => some entries
  | name :: rest, entries =>
    match entries.lookup name with
    | some (.directory inner) => directory? rest inner
    | _ => none

/-- Changes the directory that the names lead to. -/
def alter (change : Entries → Entries) : List FileName → Entries → Entries
  | [], entries => change entries
  | name :: rest, entries =>
    entries.map fun (n, e) =>
      match e with
      | .directory inner => if n = name then (n, .directory (alter change rest inner)) else (n, e)
      | e => (n, e)

/-- Puts an entry in the place of the one of the same name, or at the end. -/
def putEntry (name : FileName) (e : FileEntry) : Entries → Entries
  | [] => [(name, e)]
  | (n, old) :: rest => if n = name then (n, e) :: rest else (n, old) :: putEntry name e rest

/-- Drops an entry. -/
def dropEntry (name : FileName) (entries : Entries) : Entries :=
  entries.filter fun (n, _) => n ≠ name

/-! ## Paths -/

/-- The part that stays in the same directory. -/
def here : FileName := Text.utf8 "."

/-- The part that leads to the parent. -/
def above : FileName := Text.utf8 ".."

/-- The parts of a path. A slash at its end asks for a directory, as a part that stays does. -/
def parts (path : String) : List FileName :=
  let pieces := (Text.pieces (· == '/') path.toList).filter (· ≠ [])
  let names := pieces.map fun piece => Text.utf8 (String.ofList piece)
  if path.toList.getLast? = some '/' then names ++ [here] else names

/-- Whether a path starts at the topmost directory, wherever it is used. -/
def isAbsolute (path : String) : Bool := path.toList.head? == some '/'

/-- The directory at which a path starts that is used in the directory `dir`. -/
def start (path : String) (dir : List FileName) : List FileName :=
  if isAbsolute path then [] else dir

/-- Where a path leads. -/
inductive Target
  /-- To an entry; the names lead there without links. -/
  | entry (names : List FileName) (e : FileEntry)
  /-- To nothing, but the directory is there in which it could be. -/
  | vacant (directory : List FileName) (name : FileName)
deriving Repr

/-- Walks on from a directory; `follow` says whether a link at the end is followed. -/
def walk (root : Entries) (follow : Bool) (links : Nat) (dir : List FileName)
    (rest : List FileName) : Except FileError Target :=
  match rest with
  | [] =>
    match directory? dir root with
    | some entries => .ok (.entry dir (.directory entries))
    | none => .error .missing
  | name :: rest =>
    if name = here then walk root follow links dir rest
    else if name = above then walk root follow links dir.dropLast rest
    else if 255 < name.length then .error .nameTooLong
    else
      match (directory? dir root).bind (·.lookup name) with
      | none => if rest = [] then .ok (.vacant dir name) else .error .missing
      | some (.directory _) => walk root follow links (dir ++ [name]) rest
      | some (.file id modified content) =>
        if rest = [] then .ok (.entry (dir ++ [name]) (.file id modified content))
        else .error .notDirectory
      | some (.link target) =>
        if rest = [] && !follow then .ok (.entry (dir ++ [name]) (.link target))
        else
          match links with
          | 0 => .error .tooManyLinks
          | links + 1 => walk root follow links (start target dir) (parts target ++ rest)
termination_by (links, rest.length)

/-- Where a path leads that is used in the directory `dir`. -/
def resolve (root : Entries) (dir : List FileName) (follow : Bool) (path : String) :
    Except FileError Target :=
  if path.toList.contains '\x00' then .error .nulInPath
  else if path = "" then .error .missing
  else if 4096 ≤ (Text.utf8 path).length then .error .nameTooLong
  else walk root follow 40 (start path dir) (parts path)

end FileTree

end SupervisedWorker
