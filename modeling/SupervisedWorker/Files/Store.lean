import SupervisedWorker.Files.Tree

/-!
# A file system in memory

A tree of directories, the locks on its files, and a clock. A lock belongs to a file and not to its
name: it outlives the removal of the file, and a new file of the same name is not locked.
-/

namespace SupervisedWorker

/-- A lock on a file; it is exclusive unless it is shared. The worker's own locks have no holder. -/
structure FileLock where
  file : Nat
  holder : Option String
  shared : Bool
deriving DecidableEq, Repr, Inhabited

/-- A file system. -/
structure FileStore where
  root : FileTree.Entries
  locks : List FileLock
  /-- The number of the next file. -/
  nextId : Nat
  /-- The time, in nanoseconds since 1970. -/
  now : Int
  /-- The directory in which the worker stands, where its paths start that are not absolute. -/
  current : List FileName
deriving Repr, Inhabited

namespace FileStore

open FileTree

/-- A file system with an empty topmost directory, in which the worker stands. -/
def empty (now : Int) : FileStore := ⟨[], [], 0, now, []⟩

/-- Where a path leads; links at its end are followed. -/
def follow (s : FileStore) (path : String) : Except FileError Target :=
  resolve s.root s.current true path

/-- Where a path leads; a link at its end is not followed. -/
def stay (s : FileStore) (path : String) : Except FileError Target :=
  resolve s.root s.current false path

/-- The directory that holds the entry of the given names, and the entry's name. -/
def splitLast (names : List FileName) : Option (List FileName × FileName) :=
  names.getLast?.map (names.dropLast, ·)

/-- Whether the path leads to something, over links if need be. -/
def probe (path : String) (s : FileStore) : Except FileError Unit :=
  match s.follow path with
  | .error e => .error e
  | .ok (.vacant _ _) => .error .missing
  | .ok (.entry _ _) => .ok ()

/-- What lies at a path. -/
def inspect (path : String) (s : FileStore) : Except FileError FileInfo :=
  match s.stay path with
  | .error e => .error e
  | .ok (.vacant _ _) => .error .missing
  | .ok (.entry _ (.file _ modified _)) => .ok ⟨true, modified⟩
  | .ok (.entry _ _) => .ok ⟨false, s.now⟩

/-- The names in a directory. -/
def list (path : String) (s : FileStore) : Except FileError (List FileName) :=
  match s.follow path with
  | .error e => .error e
  | .ok (.vacant _ _) => .error .missing
  | .ok (.entry _ (.directory entries)) => .ok (entries.map (·.1))
  | .ok (.entry _ _) => .error .notDirectory

/-- Drops the entry of the given names. -/
def drop (names : List FileName) (s : FileStore) : FileStore :=
  match splitLast names with
  | some (dir, name) => { s with root := alter (dropEntry name) dir s.root }
  | none => s

/-- Puts an entry into a directory. -/
def put (dir : List FileName) (name : FileName) (e : FileEntry) (s : FileStore) : FileStore :=
  { s with root := alter (putEntry name e) dir s.root }

/-- Removes what is no directory. -/
def remove (path : String) (s : FileStore) : Except FileError Unit × FileStore :=
  match s.stay path with
  | .error e => (.error e, s)
  | .ok (.vacant _ _) => (.error .missing, s)
  | .ok (.entry _ (.directory _)) => (.error .isDirectory, s)
  | .ok (.entry names _) => (.ok (), s.drop names)

/-- The number of the file at a path. -/
def openFile (path : String) (s : FileStore) : Except FileError Nat :=
  match s.follow path with
  | .error e => .error e
  | .ok (.vacant _ _) => .error .missing
  | .ok (.entry _ (.file id _ _)) => .ok id
  | .ok (.entry _ _) => .error .isDirectory

/-- What the file at a path holds. -/
def read (path : String) (s : FileStore) : Except FileError String :=
  match s.follow path with
  | .error e => .error e
  | .ok (.vacant _ _) => .error .missing
  | .ok (.entry _ (.file _ _ content)) => .ok content
  | .ok (.entry _ _) => .error .isDirectory

/-- Whether somebody holds a lock on a file. -/
def isLocked (file : Nat) (s : FileStore) : Bool := s.locks.any (·.file == file)

/-- Takes the exclusive lock of a file for the worker. -/
def tryLock (file : Nat) (s : FileStore) : Bool × FileStore :=
  if s.isLocked file then (false, s)
  else (true, { s with locks := s.locks ++ [⟨file, none, false⟩] })

/-- Gives back the worker's lock on a file. -/
def unlock (file : Nat) (s : FileStore) : FileStore :=
  { s with locks := s.locks.filter fun l => !(l.file == file && l.holder.isNone) }

/-- The calls to this file system. -/
def system : FileSystem FileStore where
  probe path s := (s.probe path, s)
  inspect path s := (s.inspect path, s)
  list path s := ((s.list path).map fun names => names.map .ok, s)
  remove path s := s.remove path
  openFile path s := (s.openFile path, s)
  tryLock file s := (.ok (s.tryLock file).1, (s.tryLock file).2)
  unlock := unlock

end FileStore

end SupervisedWorker
