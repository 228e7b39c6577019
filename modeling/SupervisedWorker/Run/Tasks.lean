import SupervisedWorker.Run

/-!
# The two tasks of a run

`mainStep` and `guardianStep` are the steps of the main task and of the monitor's task. A sleep ends
with the step that follows it, and a task without a next step waits for the other, for the interrupt,
or is over. A step looks at what the tasks share, or changes it, at one point, unless it prints a
line for the agent: then it looks at the gate, writes and flushes. `Run.Traffic` has these apart.
-/

namespace SupervisedWorker

namespace Run

variable {σ : Type}

/-- The reason that the monitor gives when the agent is gone. -/
def parentLost : String := "parent-lost"

/-- The reason that the main task gives when it stops the monitor. -/
def stopping : String := "stopping"

/-! ## The monitor's task -/

/-- The entry about an agent that is gone. -/
def goneEntry : JournalEntry := Journal.warn .run "Supervising parent is gone" []

/-- One tick of the housekeeping. -/
def keepHouse (chore : Chore σ) (s : State σ) : State σ :=
  let (_, bounded, entries, slot, outside) :=
    s.bounded.tick chore.name chore.perform s.slot s.outside
  entries.foldl (fun s e => s.write e) { s with bounded, slot, outside }

/-- Asks whether the agent lives. -/
def askAgent (p : Plan σ) (i : AgentIdentity) (s : State σ) : AgentLife × State σ :=
  let (life, outside) := AgentProbe.check p.files p.layout i s.outside
  (life, { s with outside })

/-- How the monitor reaches the run. -/
def monitorSurroundings (p : Plan σ) : Monitor.Surroundings (State σ) where
  cancelled s := s.interrupt.raised
  sample s :=
    let (pause, outside) := p.sample s.outside
    (pause, { s with outside })
  housekeeping := p.chore.map keepHouse
  agent := p.role.identity?.map (askAgent p)
  roundFinished s := { s with outside := p.roundFinished s.outside }
  write := State.write

/-- The task after a step of the monitor. -/
def Guardian.after : Monitor.Phase → Guardian
  | .ended .cancelled => .done
  | .ended .parentLost => .muting
  | phase => .watching phase

/-- The next step of the monitor's task, if it has one. -/
def guardianStep (p : Plan σ) (s : State σ) : Option (State σ) :=
  match s.guardian with
  | .absent => none
  | .watching phase =>
    let (phase, s) := p.monitor.step (monitorSurroundings p) phase s
    some { s with guardian := .after phase }
  | .muting => some { s.suppress with guardian := .warning }
  | .warning => some { s.write goneEntry with guardian := .recording }
  | .recording => some { s.record parentLost with guardian := .raising }
  | .raising => some { s.raise with guardian := .done }
  | .done => none

/-! ## The main task -/

/-- The line that tells the agent which process this is. -/
def openingLine (processId : String) : String := "pid=" ++ processId

/-- The lines before the end of the process. -/
def closingLines (clock : ClockText) (report : Report) : String :=
  "Exiting...\n" ++ report.textBy clock

/-- The entry about a monitor that did not stop. -/
def lateMonitorEntry : JournalEntry := Journal.warn .run "Liveness monitor did not stop in time" []

/-- Starts the services of the settings. -/
def boot (p : Plan σ) (s : State σ) : State σ :=
  match p.catalog.boot StarterScript.boot p.settings.general.services (s.worker, s.started) with
  | (.error failure, worker, started) =>
    { s with worker, started, stage := .finished (.bootFailed failure) }
  | (.ok _, worker, started) =>
    { s with worker, started, stage := .watching, guardian := .watching .starting }

/-- The stage after the marker was seen and its removal attempted. -/
def afterMarker (last : Bool) : Stage :=
  if last then .stopping .stopCommand else .released .stopCommand

/-- The stage after a look at which the marker was not seen. -/
def afterNothing (last : Bool) : Stage := if last then .stopping .interrupted else .dozing

/-- Looks for the marker. -/
def look (p : Plan σ) (w : StopWatch) (last : Bool) (s : State σ) : State σ :=
  let files := p.files.within State.outside fun s outside => { s with outside }
  match w.seesMarker files State.write s with
  | (true, s) => s.goTo (.removing last w.attempts 1)
  | (false, s) => s.goTo (afterNothing last)

/-- Attempts to remove the marker, or gives up. -/
def remove (p : Plan σ) (w : StopWatch) (last : Bool) (left attempt : Nat) (s : State σ) :
    State σ :=
  let files := p.files.within State.outside fun s outside => { s with outside }
  match left with
  | 0 => (s.write (StopWatch.giveUpEntry w.attempts)).goTo (afterMarker last)
  | left + 1 =>
    match w.removeOnce files State.write attempt s with
    | (true, s) => s.goTo (afterMarker last)
    | (false, s) => s.goTo (.removing last left (attempt + 1))

/-- The stage after the end of the watch. -/
def afterWatch (p : Plan σ) (trigger : StopTrigger) (reason : Option String) : Stage :=
  match trigger with
  | .stopCommand => .stopping .stopCommand
  | .interrupted =>
    if reason = some parentLost then .finished .orphaned
    else if p.role.isSupervised then .lingering
    else .stopping .interrupted

/-- The stage after the wait for the monitor. -/
def afterMonitor : StopTrigger → Stage
  | .stopCommand => .quieting
  | .interrupted => .draining .interrupted

/-- The stage after the sweep. -/
def afterSweep (trigger : StopTrigger) (report : Report) : Stage :=
  match trigger with
  | .stopCommand => .resuming report
  | .interrupted => .reporting .interrupted report

/-- The stage after the report was printed. -/
def afterReport (trigger : StopTrigger) (report : Report) : Stage :=
  match trigger with
  | .stopCommand => .signing report
  | .interrupted => .finished (.stopped .interrupted report)

/-- Drains the registry. -/
def drain (p : Plan σ) (trigger : StopTrigger) (s : State σ) : State σ :=
  let (hooks, registry) := s.worker.registry.drain
  { s with
    worker := { s.worker with registry }
    stage := .sweeping trigger (.start (p.time s.outside) p.hookLimit hooks) }

/-- One step of the sweep. -/
def sweep (trigger : StopTrigger) (progress : Sweep.Progress HookScript) (s : State σ) :
    State σ :=
  if progress.isOver then
    { s with left := some progress, stage := afterSweep trigger progress.report }
  else
    let (progress, worker) := progress.step Worker.surroundings s.worker
    { s with worker, stage := .sweeping trigger progress }

/-- The next step of the main task, if it has one. -/
def mainStep (p : Plan σ) (s : State σ) : Option (State σ) :=
  match s.stage with
  | .opening =>
    some ((if p.role.isSupervised then s.say (openingLine p.processId) else s).goTo .booting)
  | .booting => some (boot p s)
  | .watching =>
    if s.interrupt.raised then some (s.goTo (.released .interrupted))
    else p.watch.map fun _ => s.goTo (.polling false)
  | .polling last => p.watch.map fun w => look p w last s
  | .removing last left attempt => p.watch.map fun w => remove p w last left attempt s
  | .dozing =>
    some (s.goTo (if s.interrupt.raised then .released .interrupted else .watching))
  | .released trigger => some (s.goTo (afterWatch p trigger s.interrupt.reason))
  | .lingering => some (s.goTo (.polling true))
  | .stopping trigger => some ((s.record stopping).goTo (.raising trigger))
  | .raising trigger => some (s.raise.goTo (.joining trigger))
  | .joining trigger => if s.guardian = .done then some (s.goTo (afterMonitor trigger)) else none
  | .quieting => some (s.suppress.goTo (.draining .stopCommand))
  | .draining trigger => some (drain p trigger s)
  | .sweeping trigger progress => some (sweep trigger progress s)
  | .resuming report => some (s.resume.goTo (.reporting .stopCommand report))
  | .reporting trigger report =>
    some ((s.say (closingLines p.clock report)).goTo (afterReport trigger report))
  | .signing report => some ((s.say p.settings.shutdown.completionToken).goTo (.leaving report))
  | .leaving report => some (s.goTo (.finished (.stopped .stopCommand report)))
  | .finished _ => none

end Run

end SupervisedWorker
