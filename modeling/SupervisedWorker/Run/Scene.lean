import SupervisedWorker.Files.Script
import SupervisedWorker.Monitor.Script
import SupervisedWorker.Run.Timeline

/-!
# Scripted runs

In a scripted run the files lie in memory, the samples show what the script says, the housekeeping
ends as the script says, and others change files and trigger the interrupt on given occasions.
-/

namespace SupervisedWorker

namespace Run

/-- What lies outside a scripted run. -/
structure Scene where
  files : FileStore
  /-- What the samples show; the last value holds from then on. -/
  pauses : List Duration
  /-- How many samples have been taken. -/
  samples : Nat
  housekeeping : Housekeeping.Script
deriving Repr

namespace Scene

/-- The files of a scene. -/
def fileSystem : FileSystem Scene :=
  FileStore.system.within files fun s files => { s with files }

/-- Takes a sample. -/
def sample (s : Scene) : Duration × Scene :=
  ((s.pauses[s.samples]?).getD (s.pauses.getLast?.getD .zero), { s with samples := s.samples + 1 })

/-- The scripted housekeeping. -/
def chore : Chore Scene where
  name := Monitor.Scene.task
  perform slot s :=
    let (attempt, slot, housekeeping) := s.housekeeping.run slot
    (attempt, slot, { s with housekeeping })

/-- A scripted plan. -/
def plan (settings : Settings) (role : Role) (catalog : Catalog StarterScript)
    (keepsHouse : Bool) : Plan Scene where
  settings := settings
  role := role
  catalog := catalog
  processId := "<PID>"
  clock := .masked
  files := fileSystem
  time s := .ofNanos s.files.now
  sample := sample
  roundFinished := id
  housekeeping := if keepsHouse then some chore else none

end Scene

/-- What others do in a script. -/
inductive Act
  | files (step : FileStep)
  | trigger (reason : String)
deriving DecidableEq, Repr

/-- The steps of an act. -/
def Act.moves : Act → List (Move Scene)
  | .files step => [.outside fun s => { s with files := (s.files.step step).2 }]
  | .trigger reason => [.record reason, .raise]

/-- How much may happen in a scripted run. -/
def scriptedSteps : Nat := 200000

/-- Performs a scripted run. -/
def perform (p : Plan Scene) (worker : Worker) (scene : Scene)
    (acts : List (Occasion × List Act)) : State Scene :=
  let agenda := acts.map fun (occasion, acts) => ⟨occasion, acts.flatMap Act.moves⟩
  (Timeline.play p scriptedSteps (.start p worker scene agenda)).state

end Run

end SupervisedWorker
