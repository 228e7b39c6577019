import SupervisedWorker.Run.Moves

/-!
# Runs on a clock

On a clock the tasks take their steps as soon as their sleeps are over, nothing holds up the threads
of the sweep, and time passes only while everybody sleeps. The interrupt ends the monitor's sleep and
the sleep between two looks at the marker. What others do comes at a given time, or right after a
given sample of the monitor. Of two steps at the same time that of the others comes first, then that
of the monitor.
-/

namespace SupervisedWorker

namespace Run

variable {σ : Type}

/-- When others do something. -/
inductive Occasion
  | time (t : Duration)
  /-- Right after a sample of the monitor; the first one has number 0. -/
  | sample (number : Nat)
deriving DecidableEq, Repr

/-- The time of an occasion, if the clock decides it. -/
def Occasion.time? : Occasion → Option Duration
  | .time t => some t
  | .sample _ => none

/-- Something that others do. -/
structure Appointment (σ : Type) where
  occasion : Occasion
  moves : List (Move σ)

/-- A run on a clock. -/
structure Timeline (σ : Type) where
  state : State σ
  now : Duration
  /-- When the main task reached its stage. -/
  mainSince : Duration
  /-- When the monitor's task reached the point where it stands. -/
  guardianSince : Duration
  /-- How many samples the monitor has taken. -/
  samples : Nat
  agenda : List (Appointment σ)

/-- How long a sleep takes: a millisecond at least. -/
def nap (n : UInt64) : Duration := if n = 0 then .ofMillis 1 else Settings.millis n

/-- How long the main task waits for the monitor. -/
def patience : Duration := .ofSecs 1

/-- How long the main task stays in its stage before the next step; `none` if it waits for
something else than the clock. -/
def mainSleep (p : Plan σ) (s : State σ) : Option Duration :=
  match s.stage with
  | .watching => if s.interrupt.raised || p.watch.isSome then some .zero else none
  | .dozing => some (if s.interrupt.raised then .zero else nap p.settings.watcher.pollIntervalMs)
  | .removing _ left attempt =>
    some (if left = 0 || attempt ≤ 1 then .zero else nap p.settings.watcher.deleteBackoffMs)
  | .lingering => some (nap p.settings.shutdown.signalLingerMs)
  | .joining _ => some (if s.guardian = .done then .zero else patience)
  | .leaving _ => some (nap p.settings.shutdown.exitLingerMs)
  | .finished _ => none
  | _ => some .zero

/-- How long the monitor's task stays where it is before its next step. -/
def guardianSleep (p : Plan σ) (s : State σ) : Option Duration :=
  match s.guardian with
  | .absent => none
  | .watching (.asleep _) =>
    some (if s.interrupt.raised then .zero else nap p.settings.monitor.periodMs)
  | .done => none
  | _ => some .zero

namespace Timeline

/-- The run at the start of the clock. -/
def start (p : Plan σ) (worker : Worker) (outside : σ) (agenda : List (Appointment σ)) :
    Timeline σ :=
  ⟨p.start worker outside, .zero, .zero, .zero, 0, agenda⟩

/-- The earlier of two times. -/
def earlier : Option Duration → Option Duration → Option Duration
  | some a, some b => some (if a ≤ b then a else b)
  | some a, none => some a
  | none, b => b

/-- The next time at which others do something. -/
def nextAppointment (t : Timeline σ) : Option Duration :=
  t.agenda.foldl (fun soonest a => earlier soonest a.occasion.time?) none

/-- The end of a sleep that began at the given time; a sleep that was cut short ends now. -/
def wake (t : Timeline σ) (since sleep : Duration) : Duration :=
  if since + sleep ≤ t.now then t.now else since + sleep

/-- When the main task takes its next step. -/
def mainDue (p : Plan σ) (t : Timeline σ) : Option Duration :=
  (mainSleep p t.state).map (t.wake t.mainSince)

/-- When the monitor's task takes its next step. -/
def guardianDue (p : Plan σ) (t : Timeline σ) : Option Duration :=
  (guardianSleep p t.state).map (t.wake t.guardianSince)

/-- Whether the time of an appointment has come. -/
def isDue (t : Timeline σ) (a : Appointment σ) : Bool :=
  match a.occasion with
  | .time d => d ≤ t.now
  | .sample n => n < t.samples

/-- Others do what they can of some moves. -/
def apply (p : Plan σ) (moves : List (Move σ)) (s : State σ) : State σ :=
  moves.foldl (fun s m => (s.move p m).getD s) s

/-- Others do everything whose time has come. -/
def keepAppointments (p : Plan σ) (t : Timeline σ) : Timeline σ :=
  let (due, later) := t.agenda.partition t.isDue
  { t with state := due.foldl (fun s a => apply p a.moves s) t.state, agenda := later }

/-- Time passes up to the given moment. -/
def passTo (moment : Duration) (t : Timeline σ) : Timeline σ :=
  { t with now := if t.now ≤ moment then moment else t.now }

/-- Whether a step of the monitor's task took a sample. -/
def tookSample : Guardian → Guardian → Bool
  | .watching .starting, .watching (.asleep _) => true
  | .watching (.asleep _), .watching (.sampled _) => true
  | _, _ => false

/-- The monitor's task takes its step. -/
def guardianTurn (p : Plan σ) (t : Timeline σ) : Timeline σ :=
  match guardianStep p t.state with
  | none => t
  | some s =>
    { t with
      state := s
      guardianSince := t.now
      samples := if tookSample t.state.guardian s.guardian then t.samples + 1 else t.samples }

/-- The threads of the sweep start on the hooks that wait for them, though a wait of no length is
over before. -/
def startHooks (p : Plan σ) (s : State σ) : State σ :=
  let ready (progress : Sweep.Progress HookScript) :=
    if p.hookLimit = .zero then progress.records.length else progress.queued.length
  (List.range (s.sweep?.elim 0 ready)).foldl (fun s hook => (s.begin p hook .zero).getD s) s

/-- The main task takes its step, or loses its patience with the monitor. -/
def mainTurn (p : Plan σ) (t : Timeline σ) : Timeline σ :=
  match (mainStep p t.state).or t.state.giveUp with
  | none => t
  | some s => { t with state := startHooks p s, mainSince := t.now }

/-- Whether the first of two times comes first, or is the only one. -/
def comesFirst : Option Duration → Option Duration → Bool
  | some a, some b => a ≤ b
  | some _, none => true
  | none, _ => false

/-- When the next thing happens. -/
def nextMoment (p : Plan σ) (t : Timeline σ) : Option Duration :=
  earlier t.nextAppointment (earlier (t.guardianDue p) (t.mainDue p))

/-- The next thing that happens; `none` if nothing ever does. -/
def step (p : Plan σ) (t : Timeline σ) : Option (Timeline σ) :=
  (t.nextMoment p).map fun moment =>
    let main := t.mainDue p
    let guardian := t.guardianDue p
    let t := t.passTo moment
    if comesFirst t.nextAppointment (earlier guardian main) then t.keepAppointments p
    else if comesFirst guardian main then (t.guardianTurn p).keepAppointments p
    else t.mainTurn p

/-- Lets a number of things happen, up to the end of the run. -/
def play (p : Plan σ) : Nat → Timeline σ → Timeline σ
  | 0, t => t
  | n + 1, t =>
    if t.state.ending?.isSome then t
    else
      match t.step p with
      | some t => play p n t
      | none => t

end Timeline

end Run

end SupervisedWorker
