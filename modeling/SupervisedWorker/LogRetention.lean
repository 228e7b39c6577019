import SupervisedWorker.Failure
import SupervisedWorker.Files.System
import SupervisedWorker.Text.Bytes
import SupervisedWorker.Time.Duration
import SupervisedWorker.WorkLayout

/-!
# How long logs are kept

A log is written to files named after it, one a day. Files that have not been changed for some time
are removed, the oldest first, except for the one changed last, which may still be in use.
-/

namespace SupervisedWorker

/-- Which logs are kept and for how long. -/
structure LogRetention where
  directory : String
  logName : String
  maxAge : Duration
deriving DecidableEq, Repr

namespace LogRetention

variable {σ : Type}

/-- How the names of the log's files begin. -/
def fileHead (r : LogRetention) : List Char := r.logName.toList ++ ".log.".toList

/-- A file of the log. -/
structure LogFile where
  /-- When it was last changed, in nanoseconds since 1970. -/
  modified : Int
  name : FileName
deriving DecidableEq, Repr, Inhabited

/-- Names in the order of their bytes. -/
def nameLe : FileName → FileName → Bool
  | [], _ => true
  | _ :: _, [] => false
  | a :: as, b :: bs => if a = b then nameLe as bs else a < b

/-- Files in the order of their last changes, and by name where that is the same. -/
def LogFile.le (a b : LogFile) : Bool :=
  if a.modified = b.modified then nameLe a.name b.name else a.modified < b.modified

/-- Whether a name is that of one of the log's files. -/
def isOurs (r : LogRetention) (name : FileName) : Bool :=
  match Text.exactly? name with
  | some s => r.fileHead.isPrefixOf s.toList
  | none => false

/-- Where a file of the log lies. -/
def path (r : LogRetention) (name : FileName) : String :=
  joinPath r.directory (Text.readable name)

/-- Looks at the files of a listing; the first thing that cannot be looked at ends it. -/
def collect (fs : FileSystem σ) (r : LogRetention) :
    List (Except FileError FileName) → σ → Except FileError (List LogFile) × σ
  | [], s => (.ok [], s)
  | .error e :: _, s => (.error e, s)
  | .ok name :: rest, s =>
    if !r.isOurs name then collect fs r rest s
    else
      match fs.inspect (r.path name) s with
      | (.error e, s) => (.error e, s)
      | (.ok info, s) =>
        match collect fs r rest s with
        | (.error e, s) => (.error e, s)
        | (.ok files, s) =>
          (.ok (if info.isRegular then ⟨info.modified, name⟩ :: files else files), s)

/-- The files that may go: all but the last. -/
def removable (files : List LogFile) : List LogFile := (files.mergeSort LogFile.le).dropLast

/-- How long ago a time is; a time to come counts as now. -/
def age (now modified : Int) : Duration := ⟨(now - modified).toNat⟩

/-- Whether a file is too old. -/
def isExpired (r : LogRetention) (now : Int) (f : LogFile) : Bool := r.maxAge ≤ age now f.modified

/-- Removes the files that are too old, up to the first that cannot be removed. -/
def prune (fs : FileSystem σ) (r : LogRetention) (now : Int) :
    List LogFile → σ → Except Failure Unit × σ
  | [], s => (.ok (), s)
  | f :: rest, s =>
    if !r.isExpired now f then prune fs r now rest s
    else
      match fs.remove (r.path f.name) s with
      | (.ok (), s) => prune fs r now rest s
      | (.error e, s) =>
        (.error ((Failure.ofMessage e.text).within s!"Failed to remove old log {r.path f.name}"), s)

/-- Removes the log's files that are too old at the given time. -/
def run (fs : FileSystem σ) (r : LogRetention) (now : Int) (s : σ) : Except Failure Unit × σ :=
  match fs.list r.directory s with
  | (.error e, s) =>
    (.error ((Failure.ofMessage e.text).within s!"Failed to list log directory {r.directory}"), s)
  | (.ok names, s) =>
    match collect fs r names s with
    | (.error e, s) => (.error (.ofMessage e.text), s)
    | (.ok files, s) => prune fs r now (removable files) s

end LogRetention

end SupervisedWorker
