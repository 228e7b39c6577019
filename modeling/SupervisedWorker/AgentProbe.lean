import SupervisedWorker.Files.System
import SupervisedWorker.Text.Bytes
import SupervisedWorker.WorkLayout

/-!
# Whether the agent lives

An agent that lives holds the lock of its probe file. The probe lies at its exact path or, if
nothing is there, under another service id among the agents' files. It tells that the agent is dead
if it is missing or if its lock can be taken; whoever cannot open or lock it assumes that the agent
lives.
-/

namespace SupervisedWorker

/-- What a probe tells about the agent. -/
inductive AgentLife
  | alive
  | dead
deriving DecidableEq, Repr, Inhabited

namespace AgentProbe

variable {σ : Type}

/-- Whether a name is that of a probe for the worker's id. -/
def isCandidate (l : WorkLayout) (i : AgentIdentity) (name : String) : Bool :=
  l.probeHead.toList.isPrefixOf name.toList &&
    (WorkLayout.probeTail i).toList.isSuffixOf name.toList

/-- The name in a listing, if it is readable, a text and that of a probe. -/
def candidate? (l : WorkLayout) (i : AgentIdentity) (listed : Except FileError FileName) :
    Option String :=
  match listed with
  | .error _ => none
  | .ok bytes => (Text.exactly? bytes).filter (isCandidate l i)

/-- The first probe in a listing. -/
def choose (l : WorkLayout) (i : AgentIdentity) (names : List (Except FileError FileName)) :
    Option String :=
  (names.findSome? (candidate? l i)).map (joinPath l.agentsDir)

/-- Where the agent's probe lies. -/
def locate (fs : FileSystem σ) (l : WorkLayout) (i : AgentIdentity) (s : σ) : Option String × σ :=
  match fs.probe (l.probePath i) s with
  | (.ok (), s) => (some (l.probePath i), s)
  | (.error _, s) =>
    match fs.list l.agentsDir s with
    | (.ok names, s) => (choose l i names, s)
    | (.error _, s) => (none, s)

/-- What the probe at a path tells. -/
def checkPath (fs : FileSystem σ) (path : String) (s : σ) : AgentLife × σ :=
  match fs.probe path s with
  | (.error _, s) => (.dead, s)
  | (.ok (), s) =>
    match fs.openFile path s with
    | (.error _, s) => (.alive, s)
    | (.ok file, s) =>
      match fs.tryLock file s with
      | (.ok true, s) => (.dead, fs.unlock file s)
      | (.ok false, s) => (.alive, s)
      | (.error _, s) => (.alive, s)

/-- What the agent's probe tells. -/
def check (fs : FileSystem σ) (l : WorkLayout) (i : AgentIdentity) (s : σ) : AgentLife × σ :=
  match locate fs l i s with
  | (none, s) => (.dead, s)
  | (some path, s) => checkPath fs path s

end AgentProbe

end SupervisedWorker
