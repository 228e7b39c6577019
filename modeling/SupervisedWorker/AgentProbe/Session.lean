import SupervisedWorker.AgentProbe
import SupervisedWorker.Files.Script

/-!
# Sessions with an agent's files

A session changes the files in a work directory and asks in between what the probe tells.
-/

namespace SupervisedWorker

namespace AgentProbe

/-- One step of a session. -/
inductive Step
  | files (step : FileStep)
  /-- Where the probe lies. -/
  | locate
  | check
  | checkPath (path : String)
deriving DecidableEq, Repr

/-- The answer to a step. -/
inductive Answer
  | files (answer : FileAnswer)
  | found (path : Option String)
  | life (life : AgentLife)
deriving DecidableEq, Repr

/-- Performs one step. -/
def step (l : WorkLayout) (i : AgentIdentity) (s : FileStore) : Step → Answer × FileStore
  | .files step =>
    let (answer, s) := s.step step
    (.files answer, s)
  | .locate =>
    let (path, s) := locate FileStore.system l i s
    (.found path, s)
  | .check =>
    let (life, s) := check FileStore.system l i s
    (.life life, s)
  | .checkPath path =>
    let (life, s) := checkPath FileStore.system path s
    (.life life, s)

/-- The answers to a script. -/
def perform (l : WorkLayout) (i : AgentIdentity) (s : FileStore) : List Step → List Answer
  | [] => []
  | first :: rest =>
    let (answer, s) := step l i s first
    answer :: perform l i s rest

end AgentProbe

end SupervisedWorker
