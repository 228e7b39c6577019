import SupervisedWorker.Run.Moves

/-!
# Writes on their way

Whoever writes looks at the gate first and writes then. Nothing keeps the gate from being suppressed
in between, and what it has let pass reaches the stream all the same. A step of a run takes the look
and the write together. `Traffic` has them apart: for the lines of the main task, for the entries
that the console shows, and for everything that anybody else writes.
-/

namespace SupervisedWorker

namespace Run

variable {σ : Type}

/-- The line that the main task has for its agent at a stage, and the stage after it. -/
def Stage.speech? (p : Plan σ) : Stage → Option (String × Stage)
  | .opening => if p.role.isSupervised then some (openingLine p.processId, .booting) else none
  | .reporting trigger report => some (closingLines p.clock report, afterReport trigger report)
  | .signing report => some (p.settings.shutdown.completionToken, .leaving report)
  | _ => none

/-- Where the main task stands with a line. -/
inductive Voice
  /-- It has not looked at the gate. -/
  | silent
  /-- It has found the gate open. -/
  | admitted
  /-- It has written the line and not flushed it. -/
  | written (answer : Except StreamError Unit)

/-- How the console shows an entry of the journal: as a line, if it shows it at all. -/
abbrev EntryLine := JournalEntry → Option String

/-- Entries that are shown by their messages. -/
def messages : EntryLine := fun e => some e.message

/-- A run and what is on its way to the streams. -/
structure Traffic (σ : Type) where
  run : State σ
  voice : Voice
  /-- The lines that the gate has let pass and that have not reached their streams. -/
  passed : List (Gate.Side × String)

namespace Traffic

/-- What happens next. -/
inductive Move (σ : Type)
  /-- The run takes a step, in which the main task finishes its line if it has written it. -/
  | step (m : Run.Move σ)
  /-- The main task looks at the gate for its line, and finds it open. -/
  | look
  /-- The main task writes its line. -/
  | speak
  /-- Somebody else looks at the gate for a line, and finds it open. -/
  | pass (side : Gate.Side) (line : String)
  /-- A line that has passed the gate reaches its stream. -/
  | land (number : Nat)

/-- A run before its first step, with nothing on its way. -/
def start (run : State σ) : Traffic σ := ⟨run, .silent, []⟩

/-- The same with another gate. -/
def withGate (gate : Gate) (x : Traffic σ) : Traffic σ :=
  { x with run := { x.run with worker := { x.run.worker with gate } } }

/-- The run has taken a step, and entries that it showed are on their way to the output. -/
def carry (show? : EntryLine) (x : Traffic σ) (run : State σ) : Traffic σ :=
  let shown := run.worker.shown.drop x.run.worker.shown.length
  { x with run, passed := x.passed ++ (shown.filterMap show?).map (.out, ·) }

/-- The run takes a step; a line of the main task that is under way is finished by its next one. -/
def step (p : Plan σ) (show? : EntryLine) (x : Traffic σ) (m : Run.Move σ) : Option (Traffic σ) :=
  match m, x.voice, x.run.stage.speech? p with
  | .main, .admitted, _ => none
  | .main, .written answer, some (_, next) =>
    some ({ x with voice := .silent }.carry show? ((x.run.settleLine answer).goTo next))
  | m, _, _ => (x.run.move p m).map (x.carry show?)

/-- One move; `none` where it is not possible. -/
def move (p : Plan σ) (show? : EntryLine) (x : Traffic σ) : Move σ → Option (Traffic σ)
  | .step m => x.step p show? m
  | .look =>
    match x.voice, x.run.stage.speech? p, x.run.worker.gate.suppressed with
    | .silent, some _, false => some { x with voice := .admitted }
    | _, _, _ => none
  | .speak =>
    match x.voice, x.run.stage.speech? p with
    | .admitted, some (line, _) =>
      let (answer, gate) := x.run.worker.gate.putLine .out line
      some { x.withGate gate with voice := .written answer }
    | _, _ => none
  | .pass side line =>
    if x.run.worker.gate.suppressed then none
    else some { x with passed := x.passed ++ [(side, line)] }
  | .land number =>
    x.passed[number]?.map fun (side, line) =>
      { x.withGate (x.run.worker.gate.putLine side line).2 with
        passed := x.passed.eraseIdx number }

/-- Several moves, one after the other. -/
def moves (p : Plan σ) (show? : EntryLine) (x : Traffic σ) : List (Move σ) → Option (Traffic σ)
  | [] => some x
  | m :: rest => (x.move p show? m).bind fun x => x.moves p show? rest

end Traffic

end Run

end SupervisedWorker
