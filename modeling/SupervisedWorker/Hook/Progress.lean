import SupervisedWorker.Hook.Sweep

/-!
# Sweeps under way

A sweep puts every hook into the queue of its worker and waits for it. The worker's thread starts on
the hook in a step of its own, at any time, which may be after the wait. Every hook has a box for its
answer, and the sweep looks into the box once, when its wait is over. A hook that overran its limit
may still answer afterwards; its answer then lies in a box that nobody looks into any more.
-/

namespace SupervisedWorker

namespace Sweep

/-- How far a sweep has come. -/
structure Progress (α : Type) where
  started : Timestamp
  limit : Duration
  /-- The worker for the next hook. -/
  worker : HookThread
  /-- The hooks that have not been handed over, the next one first. -/
  waiting : List (Hook α)
  /-- The hook that the sweep waits for, and how long it waits. -/
  current : Option (Hook α × Duration)
  /-- The boxes of the hooks that have been handed over, in their order. -/
  boxes : List (Option Outcome)
  /-- The same hooks, each with its worker, as long as no thread has started on them. -/
  queued : List (Option (HookThread × Hook α))
  /-- The records of the hooks that the sweep is done with. -/
  records : List HookRecord
deriving DecidableEq, Repr

namespace Progress

variable {α σ : Type}

/-- A sweep that has not handed over a hook yet. -/
def start (started : Timestamp) (limit : Duration) (hooks : List (Hook α)) : Progress α :=
  ⟨started, limit, .first, hooks, none, [], [], []⟩

/-- Whether the sweep is done with all its hooks. -/
def isOver (p : Progress α) : Bool := p.waiting.isEmpty && p.current.isNone

/-- What lies in the box of the hook with the given number. -/
def box (p : Progress α) (hook : Nat) : Option Outcome := (p.boxes[hook]?).join

/-- The hook with the given number and its worker, if it lies in the worker's queue. -/
def job? (p : Progress α) (hook : Nat) : Option (HookThread × Hook α) := (p.queued[hook]?).join

/-- One step of the sweep: it hands over its next hook, or ends its wait for a hook and looks into
its box. -/
def step (around : Surroundings α σ) (p : Progress α) (s : σ) : Progress α × σ :=
  match p.current, p.waiting with
  | some (h, waited), _ =>
    let (record, worker, s) :=
      settle around p.limit p.worker h waited (p.box p.records.length) s
    ({ p with worker, current := none, records := p.records ++ [record] }, s)
  | none, h :: rest =>
    ({ p with
        waiting := rest
        current := some (h, p.limit)
        boxes := p.boxes ++ [none]
        queued := p.queued ++ [some (p.worker, h)] }, s)
  | none, [] => (p, s)

/-- The sweep after the thread of a worker has started on the hook that the sweep waits for, and
how the hook replies. -/
def answered (p : Progress α) (hook : Nat) (h : Hook α) (reply : Reply) : Progress α :=
  let (box, slot) := reply.box p.limit
  { p with
    worker := { p.worker with slot }
    current := some (h, reply.waited p.limit)
    boxes := p.boxes.set hook box
    queued := p.queued.set hook none }

/-- The sweep after the thread of a worker that was left alone has started on its hook. -/
def forsaken (p : Progress α) (hook : Nat) : Progress α :=
  { p with queued := p.queued.set hook none }

/-- One step of a worker: its thread starts on the hook with the given number, which waits in its
queue. If the sweep still waits for the hook, so much of the wait has passed; the hook may answer in
the rest of it. Otherwise the worker was left alone, and so is the hook. -/
def begin (call : Call α σ) (p : Progress α) (hook : Nat) (delay : Duration) (s : σ) :
    Option (Progress α × σ) :=
  match p.job? hook with
  | none => none
  | some (w, h) =>
    let (reply, s) := call w h s
    if hook < p.records.length then some (p.forsaken hook, s)
    else if delay ≤ p.limit then some (p.answered hook h (reply.delayed delay), s)
    else none

/-- The report about the hooks that the sweep is done with. -/
def report (p : Progress α) : Report := reportSince p.started p.limit p.records

/-- Whether a hook overran its limit, is under way and has not answered yet. -/
def isOverdue (p : Progress α) (hook : Nat) : Bool :=
  (p.records[hook]?).any (·.outcome == .timedOut) && (p.job? hook).isNone && (p.box hook).isNone

/-- Whether a hook that overran its limit is still under way. -/
def hasStragglers (p : Progress α) : Bool := (List.range p.records.length).any p.isOverdue

/-- A hook that overran its limit answers after all. -/
def deliver (p : Progress α) (hook : Nat) (outcome : Outcome) : Option (Progress α) :=
  if p.isOverdue hook then some { p with boxes := p.boxes.set hook (some outcome) } else none

end Progress

end Sweep

end SupervisedWorker
