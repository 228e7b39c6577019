import SupervisedWorker.Files.Dialogue
import SupervisedWorker.Run.OldLogs
import SupervisedWorker.Run.Timeline
import SupervisedWorker.StallSampler

/-!
# Live runs

A live run is a run on a clock whose files lie behind a dialogue. Its driver tells it the time,
answers its calls and sleeps until the next step is due; `Live.attempt` takes that step or names the
call whose answer it needs.
-/

namespace SupervisedWorker

namespace Run

/-- What lies outside a live run. -/
structure Live where
  dialogue : Dialogue
  sampler : StallSampler
  /-- The time since the start of the run. -/
  clock : Duration
  /-- The time in nanoseconds since 1970. -/
  now : Int

namespace Live

/-- The files of a live run. -/
def fileSystem : FileSystem Live :=
  Dialogue.system.within dialogue fun s dialogue => { s with dialogue }

/-- The run of a worker with the given settings. It has no services to offer. -/
def plan (settings : Settings) (role : Role) (logName processId : String) : Plan Live where
  settings := settings
  role := role
  catalog := .empty
  processId := processId
  clock := .exact
  files := fileSystem
  time s := .ofNanos s.now
  sample s :=
    let (paused, sampler) := s.sampler.sample s.clock
    (paused, { s with sampler })
  roundFinished s := { s with sampler := s.sampler.roundFinished s.clock }
  housekeeping := some (oldLogs fileSystem now (logRetention settings logName))

/-- A live run at its start. -/
def start (p : Plan Live) : Timeline Live :=
  .start p (.fresh (.ofStreams .unlimited .unlimited))
    ⟨.knowing [], .fresh (Settings.millis p.settings.monitor.periodMs), .zero, 0⟩ []

/-- What an attempt at the next step comes to. -/
inductive Attempted
  | needs (call : FileCall)
  | took (t : Timeline Live)
  /-- There is no next step. -/
  | nothing

/-- Attempts the next step at the given time, with the answers that are known. -/
def attempt (p : Plan Live) (clock : Duration) (now : Int) (replies : List FileReply)
    (t : Timeline Live) : Attempted :=
  let outside := { t.state.outside with dialogue := .knowing replies, clock, now }
  match { t with now := clock, state := { t.state with outside } }.step p with
  | none => .nothing
  | some t =>
    match t.state.outside.dialogue.missing with
    | some call => .needs call
    | none => .took t

/-- How long the driver may sleep before the next step is due. -/
def rest (p : Plan Live) (clock : Duration) (t : Timeline Live) : Option Duration :=
  ({ t with now := clock }.nextMoment p).map (· - clock)

/-- The run without what it has printed and written so far. -/
def forget (t : Timeline Live) : Timeline Live :=
  let w := t.state.worker
  let out := { w.gate.out with received := [] }
  let err := { w.gate.err with received := [] }
  let worker := { w with gate := ⟨w.gate.suppressed, out, err⟩, journal := [], shown := [] }
  { t with state := { t.state with worker } }

end Live

end Run

end SupervisedWorker
