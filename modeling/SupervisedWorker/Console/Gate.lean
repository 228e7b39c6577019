import SupervisedWorker.Console.OutStream

/-!
# The gate before the console

Everything that the process shows goes through one gate. While the gate is suppressed, every write
and flush is discarded and succeeds: an agent that has asked the process to exit may no longer read
what it writes, and a write into a full pipe would never return.

A suppression guard suppresses the gate when it is made and resumes it when it is dropped. There is
one flag for all guards, so the first guard that is dropped opens the gate.
-/

namespace SupervisedWorker

/-- The gate and the two streams behind it. -/
structure Gate where
  suppressed : Bool
  out : OutStream
  err : OutStream
deriving DecidableEq, Repr, Inhabited

namespace Gate

/-- The two streams of the console. -/
inductive Side
  | out
  | err
deriving DecidableEq, Repr

/-- An open gate before two streams. -/
def ofStreams (out err : OutStream) : Gate := ⟨false, out, err⟩

def suppress (g : Gate) : Gate := { g with suppressed := true }

def resume (g : Gate) : Gate := { g with suppressed := false }

/-- The stream on one side. -/
def stream (g : Gate) : Side → OutStream
  | .out => g.out
  | .err => g.err

/-- The gate with another stream on one side. -/
def withStream (g : Gate) : Side → OutStream → Gate
  | .out, s => { g with out := s }
  | .err, s => { g with err := s }

/-- An operation on one side behind the gate, where the flag is not looked at any more. -/
def put {α : Type} (g : Gate) (side : Side)
    (operation : OutStream → Except StreamError α × OutStream) : Except StreamError α × Gate :=
  let (answer, s) := operation (g.stream side)
  (answer, g.withStream side s)

/-- Lets an operation on one side pass, or answers `discarded` while suppressed. The look at the flag
and the operation are one step here: nothing comes between them. -/
def pass {α : Type} (g : Gate) (side : Side) (discarded : α)
    (operation : OutStream → Except StreamError α × OutStream) : Except StreamError α × Gate :=
  if g.suppressed then (.ok discarded, g) else g.put side operation

/-- One write; a suppressed gate claims to have taken everything. -/
def write (g : Gate) (side : Side) (bytes : List UInt8) : Except StreamError Nat × Gate :=
  g.pass side bytes.length (·.write bytes)

/-- Writes all bytes to one side. -/
def writeAll (g : Gate) (side : Side) (bytes : List UInt8) : Except StreamError Unit × Gate :=
  g.pass side () (·.writeAll bytes)

/-- Flushes one side. -/
def flushSide (g : Gate) (side : Side) : Except StreamError Unit × Gate :=
  g.pass side () OutStream.flush

/-- Writes the pieces one after the other; the first that fails is the last. -/
def writePieces (g : Gate) (side : Side) : List (List UInt8) → Except StreamError Unit × Gate
  | [] => (.ok (), g)
  | piece :: rest =>
    match g.writeAll side piece with
    | (.error e, g) => (.error e, g)
    | (.ok (), g) => g.writePieces side rest

/-- One line. The gate is looked at once, before the text. -/
def writeLine (g : Gate) (side : Side) (line : String) : Except StreamError Unit × Gate :=
  g.pass side () (·.writeLine line)

/-- A line that the gate has let pass reaches its stream, wherever the gate stands by then. -/
def putLine (g : Gate) (side : Side) (line : String) : Except StreamError Unit × Gate :=
  g.put side (·.writeLine line)

/-- Flushes the output, then the error output; a failure of the first leaves the second alone. -/
def flush (g : Gate) : Except StreamError Unit × Gate :=
  if g.suppressed then (.ok (), g)
  else
    match g.flushSide .out with
    | (.error e, g) => (.error e, g)
    | (.ok (), g) => g.flushSide .err

/-- The state of the gate, as it is shown to a developer. -/
def describe (g : Gate) : String :=
  "OutputGate \x7b suppressed: " ++ (if g.suppressed then "true" else "false") ++ ", .. \x7d"

end Gate

end SupervisedWorker
