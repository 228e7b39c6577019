import SupervisedWorker.AgentProbe
import SupervisedWorker.Hook.Progress
import SupervisedWorker.Interrupt
import SupervisedWorker.Monitor
import SupervisedWorker.Service.Script
import SupervisedWorker.Settings
import SupervisedWorker.StopWatch

/-!
# Runs of a worker

A run starts the services, keeps the process alive until it is told to stop, and then calls the
shutdown hooks. Two tasks take part in it. The main task waits for the stop marker or the interrupt
and brings the run to its end; the monitor looks after the process meanwhile and raises the
interrupt when the agent is gone. A run whose agent is gone ends without calling a hook.

This module says what a run is made of. The steps of its tasks are in `Run.Tasks`, and what may
happen when is in `Run.Moves`.
-/

namespace SupervisedWorker

namespace Run

/-- Housekeeping that a run does beside its own work. -/
structure Chore (σ : Type) where
  name : String
  /-- Does it once on a thread with the given trace slot. -/
  perform : Panic.Slot → σ → Attempt × Panic.Slot × σ

/-- What a run is about, and how it reaches what lies outside the process. -/
structure Plan (σ : Type) where
  settings : Settings
  role : Role
  catalog : Catalog StarterScript
  /-- The number of the process, as the agent is told it. -/
  processId : String
  /-- How the times of the report are written. -/
  clock : ClockText
  files : FileSystem σ
  /-- The time of the day. -/
  time : σ → Timestamp
  /-- All the time in which the process stood still so far. -/
  sample : σ → Duration × σ
  /-- Told about the end of every round of the monitor. -/
  roundFinished : σ → σ
  housekeeping : Option (Chore σ)

/-- How a run ended. -/
inductive Ending
  /-- The hooks have been called. -/
  | stopped (trigger : StopTrigger) (report : Report)
  /-- The agent is gone; the hooks have been left alone. -/
  | orphaned
  /-- A service could not be started. -/
  | bootFailed (failure : StartFailure)
deriving DecidableEq, Repr

/-- Where the main task stands. -/
inductive Stage
  /-- Before its first line. -/
  | opening
  /-- Before the start of the services. -/
  | booting
  /-- Between two looks at the marker, after a sleep. -/
  | watching
  /-- Before a look for the marker; the last look comes after an interrupt. -/
  | polling (last : Bool)
  /-- Before an attempt at removing the marker, of which `left` are left. -/
  | removing (last : Bool) (left attempt : Nat)
  /-- Between two looks at the marker, in its sleep. -/
  | dozing
  /-- The watch is over. -/
  | released (trigger : StopTrigger)
  /-- In the sleep between an interrupt and the last look. -/
  | lingering
  /-- Before it triggers the interrupt itself. -/
  | stopping (trigger : StopTrigger)
  /-- Between the two steps of that trigger. -/
  | raising (trigger : StopTrigger)
  /-- Waits for the monitor. -/
  | joining (trigger : StopTrigger)
  /-- Before it suppresses the gate for the sweep. -/
  | quieting
  /-- Before it drains the registry. -/
  | draining (trigger : StopTrigger)
  | sweeping (trigger : StopTrigger) (progress : Sweep.Progress HookScript)
  /-- Before it resumes the gate after the sweep. -/
  | resuming (report : Report)
  /-- Before it prints the report. -/
  | reporting (trigger : StopTrigger) (report : Report)
  /-- Before it prints the completion token. -/
  | signing (report : Report)
  /-- In the sleep after the completion token. -/
  | leaving (report : Report)
  | finished (ending : Ending)
deriving DecidableEq, Repr

/-- Where the monitor's task stands. -/
inductive Guardian
  /-- The services are not started yet. -/
  | absent
  | watching (phase : Monitor.Phase)
  /-- The agent is dead: before the gate is suppressed. -/
  | muting
  /-- Before the entry about it. -/
  | warning
  /-- Before the reason is recorded. -/
  | recording
  /-- Before the interrupt is raised. -/
  | raising
  | done
deriving DecidableEq, Repr

/-- A run under way. -/
structure State (σ : Type) where
  worker : Worker
  /-- Notes of the starters that were called. -/
  started : List String
  interrupt : Interrupt
  stage : Stage
  guardian : Guardian
  bounded : Housekeeping.Bounded
  /-- The trace slot of the monitor's thread. -/
  slot : Panic.Slot
  /-- The sweep, when it is over; hooks that it has left alone are part of it. -/
  left : Option (Sweep.Progress HookScript)
  /-- What lies outside the process. -/
  outside : σ

variable {σ : Type}

namespace Plan

/-- The names of the files that the run shares with its agent. -/
def layout (p : Plan σ) : WorkLayout := ⟨p.settings.general.workDir, p.settings.probe.probePrefix⟩

/-- The watch for the stop marker, which only a supervised process has. -/
def watch (p : Plan σ) : Option StopWatch :=
  p.role.identity?.map fun i =>
    { marker := p.layout.stopPath i
      pollInterval := Settings.millis p.settings.watcher.pollIntervalMs
      deleteAttempts := p.settings.watcher.deleteAttempts
      deleteBackoff := Settings.millis p.settings.watcher.deleteBackoffMs }

def monitor (p : Plan σ) : Monitor :=
  ⟨Settings.millis p.settings.monitor.periodMs, Settings.millis p.settings.monitor.pauseWarningMs⟩

/-- The limit for every shutdown hook. -/
def hookLimit (p : Plan σ) : Duration := Settings.millis p.settings.shutdown.hookTimeoutMs

/-- The housekeeping, unless the settings do without it. -/
def chore (p : Plan σ) : Option (Chore σ) :=
  if p.settings.monitor.housekeepingEnabled then p.housekeeping else none

/-- The run before its first step. -/
def start (p : Plan σ) (worker : Worker) (outside : σ) : State σ where
  worker := worker
  started := []
  interrupt := .fresh
  stage := .opening
  guardian := .absent
  bounded := .new p.settings.monitor.housekeepingMaxFailures
  slot := none
  left := none
  outside := outside

end Plan

namespace State

def goTo (s : State σ) (stage : Stage) : State σ := { s with stage }

def write (e : JournalEntry) (s : State σ) : State σ := { s with worker := s.worker.write e }

def suppress (s : State σ) : State σ :=
  { s with worker := { s.worker with gate := s.worker.gate.suppress } }

def resume (s : State σ) : State σ :=
  { s with worker := { s.worker with gate := s.worker.gate.resume } }

/-- The first step of a trigger. -/
def record (reason : String) (s : State σ) : State σ :=
  (s.interrupt.triggerEntries reason).foldl (fun s e => s.write e)
    { s with interrupt := s.interrupt.recordReason reason }

/-- The second step of a trigger. -/
def raise (s : State σ) : State σ := { s with interrupt := s.interrupt.raise }

/-- The entry about a line that did not get through. -/
def lineEntry (e : StreamError) : JournalEntry :=
  Journal.warn .run "Failed to write to stdout" [("error", e.message)]

/-- What follows a line for the agent that was written: it is flushed, and if either fails there is
an entry about it. -/
def settleLine (written : Except StreamError Unit) (s : State σ) : State σ :=
  let (answer, gate) := match written with
    | .ok () => s.worker.gate.flush
    | .error e => (.error e, s.worker.gate)
  let s := { s with worker := { s.worker with gate } }
  match answer with
  | .ok () => s
  | .error e => s.write (lineEntry e)

/-- Prints a line for the agent and flushes it, with nothing in between. -/
def say (line : String) (s : State σ) : State σ :=
  let (written, gate) := s.worker.gate.writeLine .out line
  { s with worker := { s.worker with gate } }.settleLine written

/-- The sweep of the run, while it is under way and when it is over. -/
def sweep? (s : State σ) : Option (Sweep.Progress HookScript) :=
  match s.stage with
  | .sweeping _ progress => some progress
  | _ => s.left

/-- The run with its sweep in this state. -/
def keepSweep (progress : Sweep.Progress HookScript) (s : State σ) : State σ :=
  match s.stage with
  | .sweeping trigger _ => s.goTo (.sweeping trigger progress)
  | _ => { s with left := some progress }

/-- How the run ended, if it has. -/
def ending? (s : State σ) : Option Ending :=
  match s.stage with
  | .finished ending => some ending
  | _ => none

end State

end Run

end SupervisedWorker
