import SupervisedWorker.Files.Script
import SupervisedWorker.StopWatch

/-!
# Sessions with a stop marker

A session changes the files around a marker, polls for the marker, and waits for it while something
is about to happen: after some time the interrupt comes, or the marker is written. Time passes only
while somebody sleeps, and every sleep takes a millisecond at least.
-/

namespace SupervisedWorker

namespace StopWatch

/-- What is about to happen while somebody waits. -/
structure Outlook where
  /-- The interrupt is there already. -/
  interrupted : Bool
  /-- When the interrupt comes. -/
  interruptAfter : Option Duration
  /-- When the marker is written. -/
  markerAfter : Option Duration
deriving DecidableEq, Repr

/-- The surroundings of a watch in a session. -/
structure Scene where
  files : FileStore
  journal : Journal
  marker : String
  outlook : Outlook
  /-- How long the wait has lasted. -/
  clock : Duration
deriving Repr

namespace Scene

/-- The marker is written when its time has come. -/
def writeMarker (s : Scene) : Scene :=
  match s.outlook.markerAfter with
  | none => s
  | some time =>
    if time ≤ s.clock then
      { s with
        files := (s.files.write s.marker "" s.files.now).2
        outlook := { s.outlook with markerAfter := none } }
    else s

/-- Time passes. -/
def pass (d : Duration) (s : Scene) : Scene :=
  writeMarker { s with clock := s.clock + (if d.nanos < 1000000 then .ofMillis 1 else d) }

/-- Whether the interrupt has come. -/
def isInterrupted (s : Scene) : Bool :=
  s.outlook.interrupted ||
    match s.outlook.interruptAfter with
    | some time => time ≤ s.clock
    | none => false

/-- The calls to the files of a scene. -/
def surroundings : Surroundings Scene where
  files := FileStore.system.within (·.files) fun s files => { s with files }
  write e s := { s with journal := s.journal ++ [e] }
  sleep := pass
  interrupted := isInterrupted
  doze d s :=
    let s := s.pass d
    (s.isInterrupted, s)

end Scene

/-- One step of a session. -/
inductive Step
  | files (step : FileStep)
  | poll
  | wait (outlook : Outlook)
deriving DecidableEq, Repr

/-- The answer to a step; a wait that nothing ends has no trigger. -/
inductive Answer
  | files (answer : FileAnswer)
  | found (yes : Bool)
  | ended (trigger : Option StopTrigger)
deriving DecidableEq, Repr

/-- A number of rounds within which something happens, if anything is about to happen. -/
def Outlook.rounds (o : Outlook) : Nat :=
  ((o.interruptAfter.getD .zero).nanos + (o.markerAfter.getD .zero).nanos) / 1000000 + 2

/-- Performs one step. -/
def step (w : StopWatch) (s : Scene) : Step → Answer × Scene
  | .files step =>
    let (answer, files) := s.files.step step
    (.files answer, { s with files })
  | .poll =>
    let (found, s) := w.poll Scene.surroundings s
    (.found found, s)
  | .wait outlook =>
    let s := { s with outlook, clock := .zero }.writeMarker
    let (trigger, s) := w.wait Scene.surroundings outlook.rounds s
    (.ended trigger, { s with outlook := ⟨false, none, none⟩ })

/-- Performs a script; every answer comes with the scene it leaves. -/
def perform (w : StopWatch) (s : Scene) : List Step → List (Answer × Scene)
  | [] => []
  | first :: rest =>
    let (answer, s) := w.step s first
    (answer, s) :: w.perform s rest

/-- A scene with nothing about to happen. -/
def scene (w : StopWatch) (files : FileStore) : Scene :=
  ⟨files, [], w.marker, ⟨false, none, none⟩, .zero⟩

end StopWatch

end SupervisedWorker
