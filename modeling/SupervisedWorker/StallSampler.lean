import SupervisedWorker.Time.Duration

/-!
# How long the process stood still

Between two rounds the monitor sleeps for its period. Whatever lies between the end of a round and
the next sample beyond that period is time in which the process stood still. The time within a round
does not count, and neither does the time before the first sample.
-/

namespace SupervisedWorker

/-- What has been measured so far; times are read from a clock that never goes back. -/
structure StallSampler where
  /-- The period between rounds. -/
  expected : Duration
  /-- The last sample or the end of the last round, whichever is later. -/
  lastWake : Option Duration
  /-- All the time in which the process stood still. -/
  paused : Duration
deriving DecidableEq, Repr, Inhabited

namespace StallSampler

/-- Nothing measured yet. -/
def fresh (expected : Duration) : StallSampler := ⟨expected, none, .zero⟩

/-- Takes a sample. -/
def sample (now : Duration) (s : StallSampler) : Duration × StallSampler :=
  let late := match s.lastWake with
    | some last => (now - last) - s.expected
    | none => .zero
  (s.paused + late, { s with lastWake := some now, paused := s.paused + late })

/-- A round ends. -/
def roundFinished (now : Duration) (s : StallSampler) : StallSampler :=
  { s with lastWake := some now }

/-! ## Scripts -/

/-- One step with a sampler. -/
inductive Step
  | sleep (time : Duration)
  /-- Takes a sample and asks whether the pause since the last one reaches a bound. -/
  | sample (atLeast : Duration)
  | finishRound
deriving DecidableEq, Repr

/-- What a sample shows: whether nothing was measured so far, and whether the bound was reached. -/
structure Answer where
  isZero : Bool
  reached : Bool
deriving DecidableEq, Repr

/-- The answers to a script at the given time, when the last sample showed `previous`. Every step
takes a moment, and a sleep its time besides. -/
def perform (now previous : Duration) (s : StallSampler) : List Step → List Answer
  | [] => []
  | step :: rest =>
    let now := now + .ofMicros 1
    match step with
    | .sleep time => perform (now + time) previous s rest
    | .finishRound => perform now previous (s.roundFinished now) rest
    | .sample atLeast =>
      let (paused, s) := s.sample now
      ⟨paused == .zero, decide (atLeast ≤ paused - previous)⟩ :: perform now paused s rest

end StallSampler

end SupervisedWorker
