import SupervisedWorker.Hook.Registry
import SupervisedWorker.Hook.Report
import SupervisedWorker.Journal
import SupervisedWorker.Panic

/-!
# Sweeping the registry

A sweep hands the hooks to a worker thread, one after the other, and waits for each up to a limit.
The thread takes its time before it starts on a hook. A hook that fails or panics leaves the worker
as it is; a hook that has not ended within the limit, whether its thread has started on it or not,
has its interrupt cancelled and its worker is left alone, so the next hook gets a fresh one. The
worker's number is therefore one more than the number of hooks that have overrun so far.

What a hook does is given by a `Call`: it acts on a state of the caller's choice and replies how and
when it ends. The sweep in one piece that is defined here knows of every hook when its thread starts
on it; `Sweep.Progress` has the steps of a sweep, among them those of the threads.
-/

namespace SupervisedWorker

/-- A worker thread of a sweep: its number and the trace of the last panic on it. -/
structure HookThread where
  number : Nat
  slot : Panic.Slot
deriving DecidableEq, Repr, Inhabited

namespace HookThread

/-- The name of the thread. -/
def name (w : HookThread) : String := s!"shutdown-hook-worker-{w.number}"

/-- The first worker of a sweep. -/
def first : HookThread := ⟨1, none⟩

/-- The worker that takes the place of one that is stuck. -/
def next (w : HookThread) : HookThread := ⟨w.number + 1, none⟩

end HookThread

/-- How a hook answers a call. -/
structure Reply where
  attempt : Attempt
  /-- How long it takes to end; a hook may never end. -/
  after : Option Duration
  /-- The trace slot of the thread when the hook has ended. -/
  slot : Panic.Slot
deriving DecidableEq, Repr, Inhabited

namespace Reply

/-- The same reply, as it looks if the call began so much later. -/
def delayed (delay : Duration) (reply : Reply) : Reply :=
  { reply with after := reply.after.map (delay + ·) }

/-- Whether the hook ends within the limit. -/
def inTime (reply : Reply) (limit : Duration) : Bool :=
  match reply.after with
  | some d => d ≤ limit
  | none => false

/-- The outcome of a hook that ended in time, and the trace slot after it was described. -/
def outcome (reply : Reply) : Outcome × Panic.Slot :=
  match reply.attempt with
  | .succeeded => (.completed, reply.slot)
  | .failed cause => (.failed cause.fullText, reply.slot)
  | .panicked payload =>
    let (detail, slot) := Panic.describe payload reply.slot
    (.failed detail, slot)

/-- What lies in the hook's box when the wait for it is over, and the trace slot by then. -/
def box (reply : Reply) (limit : Duration) : Option Outcome × Panic.Slot :=
  if reply.inTime limit then
    let (outcome, slot) := reply.outcome
    (some outcome, slot)
  else (none, reply.slot)

/-- How long the sweep waits. -/
def waited (reply : Reply) (limit : Duration) : Duration :=
  if reply.inTime limit then reply.after.getD limit else limit

end Reply

/-- What calling a hook on a worker does to a state, and how the hook replies. -/
abbrev Call (α σ : Type) := HookThread → Hook α → σ → Reply × σ

namespace Sweep

variable {α σ : Type}

/-- What a sweep tells its surroundings about the hooks, next to their replies. -/
structure Surroundings (α σ : Type) where
  /-- The interrupt of the hook is cancelled. -/
  interrupt : Hook α → σ → σ
  /-- An entry is written to the journal. -/
  write : JournalEntry → σ → σ

/-- The journal entry about a hook that did not complete. -/
def entry (limit : Duration) (name : String) : Outcome → Option JournalEntry
  | .completed => none
  | .timedOut =>
    some (Journal.warn .hooks "Shutdown hook timed out, moving on"
      [("hook", name), ("timeout", limit.text)])
  | .failed detail =>
    some (Journal.warn .hooks "Shutdown hook failed" [("hook", name), ("error", detail)])

/-- Writes the entry about a hook, if there is one. -/
def note (around : Surroundings α σ) (limit : Duration) (name : String) (o : Outcome) (s : σ) : σ :=
  match entry limit name o with
  | some e => around.write e s
  | none => s

/-- Takes in what lay in a hook's box: its record, the worker for the next hook, and the state. An
empty box cancels the hook's interrupt and leaves the worker alone. -/
def settle (around : Surroundings α σ) (limit : Duration) (w : HookThread) (h : Hook α)
    (waited : Duration) (box : Option Outcome) (s : σ) : HookRecord × HookThread × σ :=
  match box with
  | some outcome => (⟨h.name, outcome, waited⟩, w, note around limit h.name outcome s)
  | none =>
    (⟨h.name, .timedOut, waited⟩, w.next,
      note around limit h.name .timedOut (around.interrupt h s))

/-- After how long the thread of a worker starts on a hook that was handed to it; `none` if the wait
for the hook is over before. -/
abbrev Start := Option Duration

/-- Hands one hook to the worker and waits for it: its record, the worker for the next hook, and the
state. The hook is called if its thread starts on it within the limit. -/
def handOne (around : Surroundings α σ) (call : Call α σ) (limit : Duration) (w : HookThread)
    (h : Hook α) (start : Start) (s : σ) : HookRecord × HookThread × σ :=
  match start.filter (· ≤ limit) with
  | none => settle around limit w h limit none s
  | some delay =>
    let (reply, s) := call w h s
    let reply := reply.delayed delay
    let (box, slot) := reply.box limit
    settle around limit { w with slot } h (reply.waited limit) box s

/-- Hands over the hooks in the given order, each with the start of its thread: the records, the
worker for a further hook, and the state. -/
def handAll (around : Surroundings α σ) (call : Call α σ) (limit : Duration) (w : HookThread) :
    List (Hook α × Start) → σ → List HookRecord × HookThread × σ
  | [], s => ([], w, s)
  | (h, start) :: rest, s =>
    let (record, w, s) := handOne around call limit w h start s
    let (records, w, s) := handAll around call limit w rest s
    (record :: records, w, s)

/-- The report of a sweep that began at the given time and has spent its time on hooks only. -/
def reportSince (started : Timestamp) (limit : Duration) (records : List HookRecord) : Report :=
  let elapsed := records.foldl (fun d record => d + record.elapsed) Duration.zero
  ⟨started, started.after elapsed, elapsed, limit, records⟩

/-- The report of a sweep on a clock that starts with it. -/
def report (limit : Duration) (records : List HookRecord) : Report :=
  reportSince ⟨0, 0⟩ limit records

/-- Hands over the hooks in the given order and reports about them. -/
def run (around : Surroundings α σ) (call : Call α σ) (limit : Duration)
    (hooks : List (Hook α × Start)) (s : σ) : Report × σ :=
  let (records, _, s) := handAll around call limit .first hooks s
  (report limit records, s)

/-- The start of a thread that nothing holds up: at once, though a wait of no length is over
before. -/
def promptStart (limit : Duration) : Start := if limit = .zero then none else some .zero

/-- The hooks, on threads that nothing holds up. -/
def promptly (limit : Duration) (hooks : List (Hook α)) : List (Hook α × Start) :=
  hooks.map (·, promptStart limit)

end Sweep

end SupervisedWorker
