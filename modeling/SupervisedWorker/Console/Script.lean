import SupervisedWorker.Console.Gate

/-!
# Scripts of console steps

A script is what the parts of a process do to the gate, one step after the other. A step on the
data either succeeds, tells how much it wrote, or fails with a stream error.
-/

namespace SupervisedWorker

namespace Console

/-- One step at the console. -/
inductive Step
  | printLine (text : String)
  | printErrorLine (text : String)
  /-- A single write to the output, which may take less than all. -/
  | writeOnce (bytes : List UInt8)
  /-- Pieces for the output, each of them written in full, up to the first that fails. -/
  | writePieces (pieces : List (List UInt8))
  /-- Flushes the output only. -/
  | flushOut
  /-- Flushes both streams. -/
  | flush
  | suppress
  | resume
  /-- Makes a suppression guard. -/
  | takeGuard
  /-- Drops a guard; an index past the last means the last. -/
  | dropGuard (index : Nat)
  | describe
deriving DecidableEq, Repr

/-- The answer to a step. -/
inductive Answer
  | silent
  | done
  | wrote (bytes : Nat)
  | failed (e : StreamError)
  /-- How many guards are held. -/
  | guards (held : Nat)
  | description (text : String)
deriving DecidableEq, Repr

/-- The gate and how many suppression guards are held. -/
structure State where
  gate : Gate
  guards : Nat
deriving DecidableEq, Repr

/-- The answer to a step that either works or not. -/
def Answer.ofResult : Except StreamError Unit → Answer
  | .ok () => .done
  | .error e => .failed e

/-- The answer to a write that may be partial. -/
def Answer.ofCount : Except StreamError Nat → Answer
  | .ok n => .wrote n
  | .error e => .failed e

namespace Step

/-- A single write of a text. -/
def write (text : String) : Step := .writeOnce (Text.utf8 text)

/-- A text that is written in full. -/
def writeAll (text : String) : Step := .writePieces [Text.utf8 text]

/-- A text in brackets and its length in bytes, in the pieces in which formatting writes them. -/
def writeFormatted (text : String) : Step :=
  let bytes := Text.utf8 text
  .writePieces [Text.utf8 "[", bytes, Text.utf8 "]", Text.utf8 (toString bytes.length)]

end Step

/-- Runs an operation of the gate. -/
def State.run (s : State) (result : Except StreamError Unit × Gate) : Answer × State :=
  (.ofResult result.1, { s with gate := result.2 })

/-- Performs one step. -/
def State.step (s : State) : Step → Answer × State
  | .printLine text => s.run (s.gate.writeLine .out text)
  | .printErrorLine text => s.run (s.gate.writeLine .err text)
  | .writeOnce bytes =>
    let (count, gate) := s.gate.write .out bytes
    (.ofCount count, { s with gate })
  | .writePieces pieces => s.run (s.gate.writePieces .out pieces)
  | .flushOut => s.run (s.gate.flushSide .out)
  | .flush => s.run s.gate.flush
  | .suppress => (.silent, { s with gate := s.gate.suppress })
  | .resume => (.silent, { s with gate := s.gate.resume })
  | .takeGuard => (.guards (s.guards + 1), ⟨s.gate.suppress, s.guards + 1⟩)
  | .dropGuard _ =>
    match s.guards with
    | 0 => (.guards 0, s)
    | held + 1 => (.guards held, ⟨s.gate.resume, held⟩)
  | .describe => (.description s.gate.describe, s)

/-- Performs a script; every answer comes with the state it leaves. -/
def State.perform (s : State) : List Step → List (Answer × State)
  | [] => []
  | step :: rest =>
    let (answer, s) := s.step step
    (answer, s) :: s.perform rest

end Console

end SupervisedWorker
