import SupervisedWorker.Time.Timestamp

/-!
# The report of a sweep

A report has one record for every hook that was called, in the order of the calls. Its text has a
line with the start, a line with the number of hooks, one line or more for every hook, and a line
with the end.
-/

namespace SupervisedWorker

/-- How a hook ended. -/
inductive Outcome
  /-- It returned in time. -/
  | completed
  /-- It overran its limit and was left alone. -/
  | timedOut
  /-- It failed or panicked, which the detail describes. -/
  | failed (detail : String)
deriving DecidableEq, Repr, Inhabited

namespace Outcome

/-- The outcome in one word. -/
def label : Outcome → String
  | completed => "completed"
  | timedOut => "timed-out"
  | failed _ => "failed"

/-- What is known about a failure. -/
def detail : Outcome → Option String
  | failed d => some d
  | _ => none

end Outcome

/-- What became of one hook, and how long the sweep waited for it. -/
structure HookRecord where
  name : String
  outcome : Outcome
  elapsed : Duration
deriving DecidableEq, Repr, Inhabited

/-- The result of a sweep. -/
structure Report where
  started : Timestamp
  completed : Timestamp
  elapsed : Duration
  /-- The limit for every hook. -/
  timeout : Duration
  records : List HookRecord
deriving DecidableEq, Repr, Inhabited

/-- How the measured times of a report are written. -/
structure ClockText where
  started : Timestamp → String
  completed : Timestamp → String
  elapsed : Duration → String

/-- Measured times as they are. -/
def ClockText.exact : ClockText := ⟨Timestamp.text, Timestamp.text, Duration.text⟩

/-- Measured times replaced by placeholders, for runs whose clock nobody can foretell. -/
def ClockText.masked : ClockText := ⟨fun _ => "<START>", fun _ => "<END>", fun _ => "<T>"⟩

namespace Report

/-- How many hooks were called. -/
def size (r : Report) : Nat := r.records.length

/-- The names of the hooks, in the order of the calls. -/
def hookNames (r : Report) : List String := r.records.map (·.name)

/-- How many hooks did not complete. -/
def failures (r : Report) : Nat := r.records.countP fun record => record.outcome != .completed

/-- Whether the sweep did not end before it began. -/
def isOrdered (r : Report) : Bool := r.started.le r.completed

/-- The lines of one record, each ended by a line break. -/
def recordText (clock : ClockText) (timeout : Duration) (record : HookRecord) : String :=
  match record.outcome with
  | .completed =>
    s!"> shutdown hook called for: {record.name} ({clock.elapsed record.elapsed})\n"
  | .timedOut =>
    s!"> timeout waiting for shutdown hook of: {record.name} (limit {timeout.text})\n"
  | .failed detail => s!"> shutdown hook of: {record.name} reported error:\n{detail}\n"

/-- The report as text, without a line break at its end. -/
def textBy (clock : ClockText) (r : Report) : String :=
  s!"Started shutdown at: {clock.started r.started}\n"
    ++ s!"Calling [{r.size}] shutdown hooks...\n"
    ++ String.join (r.records.map (recordText clock r.timeout))
    ++ s!"Completed shutdown at: {clock.completed r.completed} (took {clock.elapsed r.elapsed})"

/-- The report with its times as they were measured. -/
def text (r : Report) : String := r.textBy .exact

end Report

end SupervisedWorker
