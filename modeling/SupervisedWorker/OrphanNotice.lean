import SupervisedWorker.Console.Gate
import SupervisedWorker.Journal

/-!
# The notice of an orphan

A process whose agent is gone says so on its console before it exits. Its output may go to a pipe
that nobody reads, so the notice is written by a thread of its own, for which the gate is opened,
and the process waits for that thread no longer than a grace. Then it suppresses the gate, whatever
has become of the notice.
-/

namespace SupervisedWorker

namespace OrphanNotice

/-- The entry that is the notice. -/
def entry : JournalEntry := Journal.error .exit "Supervising parent missing, exiting" []

/-- An entry as a line on the console. -/
def consoleLine (e : JournalEntry) : String := s!"{e.severity.label} {e.message}\n"

/-- Where the thread with the notice stands. -/
inductive Thread
  | ready
  /-- It has opened the gate. -/
  | opened
  /-- It has written the notice. -/
  | done
deriving DecidableEq, Repr, Inhabited

/-- The gate, the thread with the notice, and whether the process still waits for it. -/
structure State where
  gate : Gate
  thread : Thread
  waiting : Bool
deriving DecidableEq, Repr

/-- Who takes the next step. -/
inductive Move
  | thread
  /-- The process, because the notice is written. -/
  | noticed
  /-- The process, because the grace is over. -/
  | graceOver
deriving DecidableEq, Repr

namespace State

/-- A notice that is about to be written. -/
def start (gate : Gate) : State := ⟨gate, .ready, true⟩

/-- The process goes on. -/
def goOn (s : State) : State := { s with gate := s.gate.suppress, waiting := false }

/-- One step; `none` where it cannot be taken. -/
def move (s : State) : Move → Option State
  | .thread =>
    match s.thread with
    | .ready => some { s with gate := s.gate.resume, thread := .opened }
    | .opened =>
      let gate := (s.gate.writeAll .out (Text.utf8 (consoleLine entry))).2
      some { s with gate, thread := .done }
    | .done => none
  | .noticed => if s.waiting && s.thread = .done then some s.goOn else none
  | .graceOver => if s.waiting then some s.goOn else none

/-- Several steps. -/
def moves (s : State) : List Move → Option State
  | [] => some s
  | m :: rest => (s.move m).bind fun s => s.moves rest

end State

/-- The gate after a notice that gets through, on a thread that starts at once. -/
def deliver (gate : Gate) : Gate :=
  (((State.start gate).moves [.thread, .thread, .noticed]).map (·.gate)).getD gate

/-- The gate after a notice that hangs in its write until the grace is over, as it does before a
console that nobody reads. -/
def abandon (gate : Gate) : Gate :=
  (((State.start gate).moves [.thread, .graceOver]).map (·.gate)).getD gate

end OrphanNotice

end SupervisedWorker
