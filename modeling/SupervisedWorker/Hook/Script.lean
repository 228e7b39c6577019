import SupervisedWorker.Console.Gate
import SupervisedWorker.Hook.ExitGuard
import SupervisedWorker.Hook.Sweep

/-!
# Scripted hooks and the process they act on

A scripted hook does a few things to its process and then ends in one of the ways in which hooks
end. It may register and withdraw hooks, start a sweep of its own and print. Since a sweep seals the
registry before it calls the first hook, sweeps inside a sweep find nothing to run, whatever bound
is set on how deep they nest.

A script knows one way of printing and takes no time but by sleeping or hanging. What is true of
hooks that do anything else is said about a `Call`.
-/

namespace SupervisedWorker

/-- What a scripted hook does before it ends. -/
inductive HookAct
  /-- Registers a hook of the given name. -/
  | register (name : String)
  /-- Withdraws the hook that was registered as the given number. -/
  | deregister (number : Nat)
  /-- Sweeps the registry. -/
  | sweep
  /-- Sets off a guard over the registry. -/
  | fireGuard
  /-- Prints a line to both streams of the console; a stream that refuses it fails the hook. -/
  | print (line : String)
deriving DecidableEq, Repr, Inhabited

/-- How a scripted hook ends. -/
inductive HookEnding
  | succeed
  | fail (cause : Failure)
  | panic (payload : Panic.Payload)
  /-- Waits until its interrupt is cancelled. -/
  | hang
  /-- Sleeps, whatever happens to its interrupt. -/
  | sleep (time : Duration)
deriving DecidableEq, Repr, Inhabited

/-- A scripted hook; the label is the name under which it notes that it was called. -/
structure HookScript where
  label : String
  acts : List HookAct
  ending : HookEnding
deriving DecidableEq, Repr, Inhabited

/-- The parts of a worker process that hooks can reach, and what is noted about their calls. -/
structure Worker where
  registry : Registry HookScript
  gate : Gate
  journal : Journal
  /-- The entries that were shown on the console too, which a suppressed gate prevents. -/
  shown : Journal
  /-- One note for every call of a hook, in order. -/
  calls : List String
  /-- Labels of the hooks that saw their interrupt cancelled. -/
  interrupted : List String
  /-- The identities of the numbered hooks, in the order of registration. -/
  numbered : List Nat
  /-- The identity of the next hook. -/
  nextId : Nat
deriving DecidableEq, Repr, Inhabited

namespace Worker

/-- A process that has done nothing yet. -/
def fresh (gate : Gate) : Worker := ⟨.empty, gate, [], [], [], [], [], 0⟩

/-- Appends an entry to the journal and, unless the gate is suppressed, shows it. -/
def write (e : JournalEntry) (p : Worker) : Worker :=
  { p with
    journal := p.journal ++ [e]
    shown := if p.gate.suppressed then p.shown else p.shown ++ [e] }

/-- Registers a hook without a number. -/
def attach (name : String) (script : HookScript) (p : Worker) : Worker :=
  { p with
    registry := p.registry.register ⟨p.nextId, name, script⟩
    nextId := p.nextId + 1 }

/-- Registers a hook and gives it the next number, whether the registry still takes it or not. -/
def register (name : String) (script : HookScript) (p : Worker) : Nat × Worker :=
  (p.numbered.length, { p.attach name script with numbered := p.numbered ++ [p.nextId] })

/-- Withdraws the hook of a number; `none` where the number was never given. -/
def deregister (number : Nat) (p : Worker) : Option Bool × Worker :=
  match p.numbered[number]? with
  | none => (none, p)
  | some id =>
    let (removed, registry) := p.registry.deregister id
    (some removed, { p with registry })

/-- Prints a line to the output and then to the error output. -/
def printBoth (line : String) (p : Worker) : Except StreamError Unit × Worker :=
  match p.gate.writeLine .out line with
  | (.error e, gate) => (.error e, { p with gate })
  | (.ok (), gate) =>
    let (answer, gate) := gate.writeLine .err line
    (answer, { p with gate })

/-- What a sweep does to the process besides calling hooks: a hook that hangs notes that its
interrupt was cancelled, and entries go to the journal. -/
def surroundings : Sweep.Surroundings HookScript Worker where
  interrupt h p :=
    if h.action.ending = .hang then { p with interrupted := p.interrupted ++ [h.action.label] }
    else p
  write := write

/-- The journal entry of a guard that goes off. -/
def guardEntry (pending : Nat) : JournalEntry :=
  Journal.warn .registry "Process exiting without a coordinated shutdown, running remaining hooks"
    [("pending", toString pending)]

/-- A guard is dropped or fired: if it is armed and finds the registry open, the given sweep
runs. -/
def goOff (sweep : Worker → Report × Worker) (guard : ExitGuard) (p : Worker) :
    Option Report × Worker :=
  if guard.looks p.registry then
    let (report, p) := sweep (p.write (guardEntry p.registry.size))
    (some report, p)
  else (none, p)

/-- An armed guard goes off. -/
def fireGuardBy (sweep : Worker → Report × Worker) (p : Worker) : Option Report × Worker :=
  p.goOff sweep .armed

end Worker

namespace HookScript

/-- Where scripted hooks panic; a script has neither place nor stack. -/
def trace : Panic.Trace := ⟨"<LOCATION>", "<TRACE>"⟩

/-- The note that an act adds to the note of the call, and the failure that ends the script
early. -/
def act (nested : Worker → Report × Worker) (a : HookAct) (p : Worker) :
    String × Option Failure × Worker :=
  match a with
  | .register name =>
    let (_, p) := p.register name ⟨name, [], .succeed⟩
    (s!" len={p.registry.size}", none, p)
  | .deregister number =>
    match p.deregister number with
    | (none, p) => (" None", none, p)
    | (some removed, p) => (if removed then " Some(true)" else " Some(false)", none, p)
  | .sweep =>
    let (report, p) := nested p
    (s!" {report.size}", none, p)
  | .fireGuard =>
    let (_, p) := p.fireGuardBy nested
    ("", none, p)
  | .print line =>
    match p.printBoth line with
    | (.error e, p) => ("", some (.ofMessage e.message), p)
    | (.ok (), p) => ("", none, p)

/-- Does one act after the other, up to the first that fails. -/
def actAll (nested : Worker → Report × Worker) :
    List HookAct → Worker → String × Option Failure × Worker
  | [], p => ("", none, p)
  | a :: rest, p =>
    match act nested a p with
    | (note, some cause, p) => (note, some cause, p)
    | (note, none, p) =>
      let (notes, cause, p) := actAll nested rest p
      (note ++ notes, cause, p)

/-- How the script's ending answers the call. Only a hook that sleeps or hangs takes time. -/
def reply (slot : Panic.Slot) : HookEnding → Reply
  | .succeed => ⟨.succeeded, some .zero, slot⟩
  | .fail cause => ⟨.failed cause, some .zero, slot⟩
  | .panic payload => ⟨.panicked payload, some .zero, Panic.record trace slot⟩
  | .hang => ⟨.succeeded, none, slot⟩
  | .sleep time => ⟨.succeeded, some time, slot⟩

/-- Calls a scripted hook, given what a sweep inside the hook does. -/
def callBy (nested : Worker → Report × Worker) : Call HookScript Worker := fun w h p =>
  let (notes, cause, p) := actAll nested h.action.acts p
  let p := { p with calls := p.calls ++ [h.action.label ++ "@" ++ w.name ++ notes] }
  match cause with
  | some cause => (⟨.failed cause, some .zero, w.slot⟩, p)
  | none => (reply w.slot h.action.ending, p)

/-- Seals the registry and reports about its hooks without calling them. -/
def sealOnly (p : Worker) : Report × Worker :=
  let (hooks, registry) := p.registry.drain
  (Sweep.report .zero (hooks.map fun h => ⟨h.name, .completed, .zero⟩), { p with registry })

/-- Drains the registry and sweeps, with sweeps inside hooks nested at most `depth` deep. -/
def sweepNested (limit : Duration) : (depth : Nat) → Worker → Report × Worker
  | 0, p => sealOnly p
  | depth + 1, p =>
    let (hooks, registry) := p.registry.drain
    Sweep.run Worker.surroundings (callBy (sweepNested limit depth)) limit
      (Sweep.promptly limit hooks) { p with registry }

end HookScript

namespace Worker

/-- Calls the given hooks in order, on threads that nothing holds up; sweeps inside the hooks drain
the registry. -/
def runHooks (limit : Duration) (hooks : List (Hook HookScript)) (p : Worker) :
    Report × Worker :=
  Sweep.run surroundings (HookScript.callBy (HookScript.sweepNested limit 1)) limit
    (Sweep.promptly limit hooks) p

/-- Drains the registry and calls what it held. -/
def sweep (limit : Duration) (p : Worker) : Report × Worker :=
  let (hooks, registry) := p.registry.drain
  runHooks limit hooks { p with registry }

/-- A guard over the registry goes off. -/
def fireGuard (limit : Duration) (p : Worker) : Option Report × Worker :=
  p.fireGuardBy (sweep limit)

end Worker

end SupervisedWorker
