import SupervisedWorker.Files.Edit

/-!
# Scripts over files

A script edits a file system and asks about it.
-/

namespace SupervisedWorker

/-- One step over files. -/
inductive FileStep
  | edit (e : FileEdit)
  /-- Whether something is at a path. -/
  | isThere (path : String)
  /-- Gives up the lock taken under a path; asks whether there was one. -/
  | release (path : String)
  /-- Whether a file's lock can be taken. -/
  | canLock (path : String)
deriving DecidableEq, Repr

/-- The answer to a step. -/
inductive FileAnswer
  | done
  | refused (e : FileError)
  | truth (yes : Bool)
deriving DecidableEq, Repr

namespace FileStore

/-- Performs one step. -/
def step (s : FileStore) : FileStep → FileAnswer × FileStore
  | .edit e =>
    match s.edit e with
    | (.ok (), s) => (.done, s)
    | (.error e, s) => (.refused e, s)
  | .isThere path => (.truth (s.isThere path), s)
  | .release path =>
    let (held, s) := s.release path
    (.truth held, s)
  | .canLock path => (.truth (s.canLock path), s)

/-- Performs steps whose answers nobody asks for: they make the files that a script begins with. -/
def stepAll (s : FileStore) (steps : List FileStep) : FileStore :=
  steps.foldl (fun s step => (s.step step).2) s

end FileStore

end SupervisedWorker
