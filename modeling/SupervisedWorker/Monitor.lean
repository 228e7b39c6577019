import SupervisedWorker.AgentProbe
import SupervisedWorker.Housekeeping.Bounded
import SupervisedWorker.Journal
import SupervisedWorker.Time.Duration

/-!
# The monitor

The monitor sleeps, samples how long the process stood still, does the housekeeping and asks whether
the agent lives, round after round. It ends when it is cancelled, which it sees before and while it
sleeps and at the end of a round, or when the agent is dead, which it says at once.
-/

namespace SupervisedWorker

/-- How often the monitor looks, and which pause is worth a warning. -/
structure Monitor where
  period : Duration
  pauseWarning : Duration
deriving DecidableEq, Repr, Inhabited

namespace Monitor

/-- Why the monitor ended. -/
inductive Exit
  | cancelled
  /-- The agent is dead. -/
  | parentLost
deriving DecidableEq, Repr, Inhabited

/-- How the monitor reaches its surroundings. -/
structure Surroundings (σ : Type) where
  /-- Whether the monitor has been cancelled. -/
  cancelled : σ → Bool
  /-- All the time in which the process stood still so far. -/
  sample : σ → Duration × σ
  /-- The housekeeping of one round, if there is any. -/
  housekeeping : Option (σ → σ)
  /-- Asks whether the agent lives, if there is one. -/
  agent : Option (σ → AgentLife × σ)
  roundFinished : σ → σ
  /-- Writes to the journal. -/
  write : JournalEntry → σ → σ

/-- Where the monitor stands. -/
inductive Phase
  /-- Before the first sample. -/
  | starting
  /-- Between two rounds, after a sample. -/
  | asleep (last : Duration)
  /-- Before the housekeeping of a round. -/
  | sampled (last : Duration)
  /-- Before the question about the agent. -/
  | kept (last : Duration)
  /-- Before the end of a round. -/
  | checked (last : Duration)
  | ended (exit : Exit)
deriving DecidableEq, Repr, Inhabited

variable {σ : Type}

/-- The entry about a long pause. -/
def pauseEntry (pause threshold : Duration) : JournalEntry :=
  Journal.warn .monitor "Long process pause detected"
    [("pause", pause.text), ("threshold", threshold.text)]

/-- The first half of a round: a sample, and a warning if the pause since the last one was long. -/
def sampleRound (m : Monitor) (around : Surroundings σ) (last : Duration) (s : σ) : Phase × σ :=
  let (current, s) := around.sample s
  let pause := current - last
  (.sampled current, if m.pauseWarning < pause then around.write (pauseEntry pause m.pauseWarning) s
    else s)

/-- One step. A sleep ends with the step, and a cancellation is seen first. -/
def step (m : Monitor) (around : Surroundings σ) : Phase → σ → Phase × σ
  | .starting, s =>
    let (first, s) := around.sample s
    (.asleep first, s)
  | .asleep last, s =>
    if around.cancelled s then (.ended .cancelled, s) else m.sampleRound around last s
  | .sampled last, s =>
    match around.housekeeping with
    | some tick => (.kept last, tick s)
    | none => (.kept last, s)
  | .kept last, s =>
    match around.agent with
    | none => (.checked last, s)
    | some ask =>
      match ask s with
      | (.dead, s) => (.ended .parentLost, s)
      | (.alive, s) => (.checked last, s)
  | .checked last, s =>
    let s := around.roundFinished s
    (if around.cancelled s then .ended .cancelled else .asleep last, s)
  | .ended exit, s => (.ended exit, s)

/-- A number of steps. -/
def steps (m : Monitor) (around : Surroundings σ) : Nat → Phase → σ → Phase × σ
  | 0, phase, s => (phase, s)
  | n + 1, phase, s =>
    let (phase, s) := m.step around phase s
    m.steps around n phase s

/-- The monitor as it is shown to a developer. -/
def describe (m : Monitor) (housekeeping : Option String) (asksAgent : Bool) : String :=
  "LivenessMonitor \x7b settings: MonitorSettings \x7b period: " ++ m.period.text
    ++ ", pause_warning: " ++ m.pauseWarning.text ++ " \x7d, housekeeping: "
    ++ (match housekeeping with | some h => "Some(" ++ h ++ ")" | none => "None")
    ++ ", parent_check: " ++ (if asksAgent then "true" else "false") ++ ", .. \x7d"

end Monitor

end SupervisedWorker
