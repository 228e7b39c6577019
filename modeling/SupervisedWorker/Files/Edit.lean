import SupervisedWorker.Files.Store

/-!
# Edits of a file system

What somebody else does to the files that a worker looks at: makes and removes entries, and takes
and gives back locks.
-/

namespace SupervisedWorker

/-- One thing that somebody else does. -/
inductive FileEdit
  /-- Makes a directory and the directories above it. -/
  | makeDirectory (path : String)
  /-- Writes a file; the time of the change is given or is now. -/
  | write (path content : String) (modified : Option Int)
  /-- Makes an empty file in the topmost directory of `dir`, whatever its name. -/
  | writeBytes (dir : String) (name : FileName)
  | link (path target : String)
  /-- Removes an entry, and what it holds if it is a directory. -/
  | remove (path : String)
  /-- Opens a file, makes it if need be, and holds a lock on it. -/
  | lock (path : String) (shared : Bool)
deriving DecidableEq, Repr

namespace FileStore

open FileTree

/-- Writes a file, or makes it; answers its number. -/
def write (path content : String) (modified : Int) (s : FileStore) :
    Except FileError Nat × FileStore :=
  match s.follow path with
  | .error e => (.error e, s)
  | .ok (.vacant dir name) =>
    (.ok s.nextId, { s.put dir name (.file s.nextId modified content) with nextId := s.nextId + 1 })
  | .ok (.entry names (.file id _ _)) =>
    match splitLast names with
    | some (dir, name) => (.ok id, s.put dir name (.file id modified content))
    | none => (.ok id, s)
  | .ok (.entry _ _) => (.error .isDirectory, s)

/-- Opens a file, or makes it, without changing it. -/
def touch (path : String) (s : FileStore) : Except FileError Nat × FileStore :=
  match s.openFile path with
  | .ok id => (.ok id, s)
  | .error _ => s.write path "" s.now

/-- Makes one directory. -/
def makeDirectory (path : String) (s : FileStore) : Except FileError Unit × FileStore :=
  match s.stay path with
  | .error e => (.error e, s)
  | .ok (.vacant dir name) => (.ok (), s.put dir name (.directory []))
  | .ok (.entry _ _) => (.error .alreadyThere, s)

/-- Whether a path leads to a directory. -/
def isDirectory (path : String) (s : FileStore) : Bool :=
  match s.follow path with
  | .ok (.entry _ (.directory _)) => true
  | _ => false

/-- Whether a path leads to a file. -/
def isFile (path : String) (s : FileStore) : Bool :=
  match s.follow path with
  | .ok (.entry _ (.file _ _ _)) => true
  | _ => false

/-- The path itself and its beginnings that end before a slash, the longest first. -/
def ancestors (path : String) : List String :=
  let pieces := (Text.pieces (· == '/') path.toList).filter (· ≠ [])
  let start := if isAbsolute path then ['/'] else []
  ((List.range pieces.length).map fun n =>
    String.ofList (start ++ List.intercalate ['/'] (pieces.take (n + 1)))).reverse

/-- Makes a directory, or finds it made. -/
def ensureDirectory (path : String) (s : FileStore) : Except FileError Unit × FileStore :=
  match s.makeDirectory path with
  | (.ok (), s) => (.ok (), s)
  | (.error e, s) => (if s.isDirectory path then .ok () else .error e, s)

/-- Makes the first of some paths a directory; where nothing is there yet in which to make it, after
those that follow. -/
def makeDirectories (s : FileStore) : List String → Except FileError Unit × FileStore
  | [] => (.ok (), s)
  | path :: above =>
    match s.ensureDirectory path with
    | (.ok (), s) => (.ok (), s)
    | (.error e, s) =>
      if e = .missing then
        match s.makeDirectories above with
        | (.ok (), s) => s.ensureDirectory path
        | (.error e, s) => (.error e, s)
      else (.error e, s)

/-- Removes an entry, and what it holds if it is a directory. -/
def removeAll (path : String) (s : FileStore) : Except FileError Unit × FileStore :=
  match s.stay path with
  | .error e => (.error e, s)
  | .ok (.vacant _ _) => (.error .missing, s)
  | .ok (.entry names _) => (.ok (), s.drop names)

/-- Makes a link. -/
def link (path target : String) (s : FileStore) : Except FileError Unit × FileStore :=
  if target = "" then (.error .missing, s)
  else
    match s.stay path with
    | .error e => (.error e, s)
    | .ok (.vacant dir name) => (.ok (), s.put dir name (.link target))
    | .ok (.entry _ _) => (.error .alreadyThere, s)

/-- Gives up the lock that is held under a name; tells whether there was one. -/
def release (holder : String) (s : FileStore) : Bool × FileStore :=
  (s.locks.any (·.holder == some holder),
    { s with locks := s.locks.filter (·.holder != some holder) })

/-- Takes a lock under the name of the path and holds it. -/
def hold (path : String) (shared : Bool) (s : FileStore) : Except FileError Unit × FileStore :=
  match s.touch path with
  | (.error e, s) => (.error e, s)
  | (.ok file, s) =>
    let (_, s) := s.release path
    (.ok (), { s with locks := s.locks ++ [⟨file, some path, shared⟩] })

/-- Whether the exclusive lock of the file at a path can be taken. -/
def canLock (path : String) (s : FileStore) : Bool :=
  match s.openFile path with
  | .ok file => !s.isLocked file
  | .error _ => false

/-- Whether something is at a path; a link at its end is not followed. -/
def isThere (path : String) (s : FileStore) : Bool :=
  match s.stay path with
  | .ok (.entry _ _) => true
  | _ => false

/-- Does one edit. -/
def edit (s : FileStore) : FileEdit → Except FileError Unit × FileStore
  | .makeDirectory path => s.makeDirectories (ancestors path)
  | .write path content modified =>
    let (answer, s) := s.write path content (modified.getD s.now)
    (answer.map fun _ => (), s)
  | .writeBytes dir name =>
    match s.follow dir with
    | .ok (.entry names (.directory _)) =>
      (.ok (), { s.put names name (.file s.nextId s.now "") with nextId := s.nextId + 1 })
    | .ok _ => (.error .notDirectory, s)
    | .error e => (.error e, s)
  | .link path target => s.link path target
  | .remove path => s.removeAll path
  | .lock path shared => s.hold path shared

end FileStore

end SupervisedWorker
