import SupervisedWorker.Failure

/-!
# Calls to the file system

What a worker asks of the file system, whatever answers. Every call may fail, may find the files
otherwise than the call before it, and says in its answer how the caller's surroundings stand
afterwards. Listings give names as bytes, since not every name is a text.
-/

namespace SupervisedWorker

/-- Why a call to the file system failed. -/
inductive FileError
  /-- An error of the operating system, by its number. -/
  | system (code : Nat)
  /-- A path with a NUL in it, which never reaches the operating system. -/
  | nulInPath
deriving DecidableEq, Repr, Inhabited

namespace FileError

/-- The text of a file error. -/
def text : FileError → String
  | system code => osErrorText code
  | nulInPath => "file name contained an unexpected NUL byte"

/-- Nothing is there. -/
def missing : FileError := .system 2

/-- Something is there already. -/
def alreadyThere : FileError := .system 17

/-- A part of the path is no directory. -/
def notDirectory : FileError := .system 20

def isDirectory : FileError := .system 21

/-- A name of the path, or the path, is too long. -/
def nameTooLong : FileError := .system 36

/-- The path leads over too many links. -/
def tooManyLinks : FileError := .system 40

end FileError

/-- The name of a file, as bytes. -/
abbrev FileName := List UInt8

/-- What is known about something in a directory that is not looked through if it is a link. -/
structure FileInfo where
  isRegular : Bool
  /-- When it was last changed, in nanoseconds since 1970. -/
  modified : Int
deriving DecidableEq, Repr, Inhabited

/-- The calls to a file system from surroundings `σ`. -/
structure FileSystem (σ : Type) where
  /-- Whether a path leads to something, over links if need be; the error `missing` says that it
  does not. -/
  probe : String → σ → Except FileError Unit × σ
  /-- What lies at a path; the last part of the path is not followed if it is a link. -/
  inspect : String → σ → Except FileError FileInfo × σ
  /-- The names in a directory, some of which may not be readable. -/
  list : String → σ → Except FileError (List (Except FileError FileName)) × σ
  /-- Removes what is no directory. -/
  remove : String → σ → Except FileError Unit × σ
  /-- Opens a file for reading and writing and gives its number. -/
  openFile : String → σ → Except FileError Nat × σ
  /-- Takes the exclusive lock of an open file; false if somebody else holds one. -/
  tryLock : Nat → σ → Except FileError Bool × σ
  /-- Gives back a lock that was taken. -/
  unlock : Nat → σ → σ

/-- A call on a part of the surroundings. -/
def callWithin {σ τ α : Type} (part : σ → τ) (withPart : σ → τ → σ) (call : τ → α × τ) (s : σ) :
    α × σ :=
  let (answer, t) := call (part s)
  (answer, withPart s t)

/-- The calls from surroundings that have those of a file system as a part. -/
def FileSystem.within {σ τ : Type} (fs : FileSystem τ) (part : σ → τ) (withPart : σ → τ → σ) :
    FileSystem σ where
  probe path := callWithin part withPart (fs.probe path)
  inspect path := callWithin part withPart (fs.inspect path)
  list path := callWithin part withPart (fs.list path)
  remove path := callWithin part withPart (fs.remove path)
  openFile path := callWithin part withPart (fs.openFile path)
  tryLock file := callWithin part withPart (fs.tryLock file)
  unlock file s := withPart s (fs.unlock file (part s))

end SupervisedWorker
