import SupervisedWorker.Run.Tasks

/-!
# What may happen during a run

Both tasks take their steps in any order, and others act at any moment: the threads of the sweep
start on the hooks that were handed to them, hooks that were left alone go on writing and answer
late, and others trigger the interrupt, register and withdraw hooks and change the files.
`State.move` takes one such step and `State.moves` several; which steps are possible is
all that is said about their order.
-/

namespace SupervisedWorker

namespace Run

/-- What happens next. -/
inductive Move (σ : Type)
  /-- The main task takes a step. -/
  | main
  /-- The monitor's task takes a step. -/
  | guardian
  /-- The main task no longer waits for the monitor. -/
  | giveUp
  /-- Somebody takes the first step of a trigger. -/
  | record (reason : String)
  /-- Somebody takes the second step of a trigger. -/
  | raise
  /-- Somebody changes what lies outside the process. -/
  | outside (change : σ → σ)
  /-- Somebody registers a hook. -/
  | register (name : String) (script : HookScript)
  /-- Somebody withdraws a hook by its number. -/
  | deregister (number : Nat)
  /-- A thread of the sweep starts on the hook with the given number, so long after it was handed
  over. -/
  | begin (hook : Nat) (delay : Duration)
  /-- A hook that was left alone prints a line. -/
  | straggle (line : String)
  /-- A hook that was left alone answers. -/
  | deliver (hook : Nat) (outcome : Outcome)

variable {σ : Type}

/-- A call of a hook in the sweep of a run. -/
def call (p : Plan σ) : Call HookScript Worker :=
  HookScript.callBy (HookScript.sweepNested p.hookLimit 1)

namespace State

/-- The main task goes on without the monitor. -/
def giveUp (s : State σ) : Option (State σ) :=
  match s.stage with
  | .joining trigger => some ((s.write lateMonitorEntry).goTo (afterMonitor trigger))
  | _ => none

/-- A thread of the sweep starts on a hook and calls it. -/
def begin (p : Plan σ) (hook : Nat) (delay : Duration) (s : State σ) : Option (State σ) :=
  s.sweep?.bind fun progress =>
    (progress.begin (call p) hook delay s.worker).map fun (progress, worker) =>
      { s with worker }.keepSweep progress

/-- A late answer reaches its box. -/
def deliver (hook : Nat) (outcome : Outcome) (s : State σ) : Option (State σ) :=
  s.sweep?.bind fun progress => (progress.deliver hook outcome).map fun progress =>
    s.keepSweep progress

/-- Whether a hook that was left alone is still under way. -/
def hasStragglers (s : State σ) : Bool := s.sweep?.any (·.hasStragglers)

/-- One step; `none` where it is not possible. -/
def move (p : Plan σ) (s : State σ) : Move σ → Option (State σ)
  | .main => mainStep p s
  | .guardian => guardianStep p s
  | .giveUp => s.giveUp
  | .record reason => some (s.record reason)
  | .raise => if s.interrupt.reason.isSome then some s.raise else none
  | .outside change => some { s with outside := change s.outside }
  | .register name script => some { s with worker := (s.worker.register name script).2 }
  | .deregister number => some { s with worker := (s.worker.deregister number).2 }
  | .begin hook delay => s.begin p hook delay
  | .straggle line =>
    if s.hasStragglers then some { s with worker := (s.worker.printBoth line).2 } else none
  | .deliver hook outcome => s.deliver hook outcome

/-- Several steps, one after the other. -/
def moves (p : Plan σ) (s : State σ) : List (Move σ) → Option (State σ)
  | [] => some s
  | m :: rest => (s.move p m).bind fun s => s.moves p rest

end State

end Run

end SupervisedWorker
