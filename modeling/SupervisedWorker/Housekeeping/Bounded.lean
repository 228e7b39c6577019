import SupervisedWorker.Journal
import SupervisedWorker.Panic
import SupervisedWorker.Text.Quoted

/-!
# Housekeeping that gives up

A housekeeping task is run once in every round. Failures in a row are counted, panics among them;
the one that reaches the limit switches the task off for good, and a success starts the count anew.
-/

namespace SupervisedWorker

namespace Housekeeping

/-- The state of a bounded task. -/
structure Bounded where
  /-- Failures in a row after which the task is switched off. -/
  maxFailures : UInt32
  /-- Failures since the last success. -/
  failures : UInt32
  disabled : Bool
deriving DecidableEq, Repr, Inhabited

/-- What a tick did. -/
inductive Tick
  | ran
  /-- The task failed; the number of failures in a row. -/
  | failed (failures : UInt32)
  /-- The task failed and was switched off. -/
  | disabled
  /-- The task had been switched off before. -/
  | skipped
deriving DecidableEq, Repr, Inhabited

namespace Bounded

/-- A task that may fail `limit` times in a row, and at least once. -/
def new (limit : UInt32) : Bounded := ⟨max limit 1, 0, false⟩

/-- The journal's word for a failure that does not reach the limit, and for the one that does. -/
def entry (task : String) (failures : UInt32) (error : String) (last : Bool) : JournalEntry :=
  let fields :=
    [("task", task), ("failures", toString failures.toNat), ("error", error)]
  if last then
    Journal.warn .housekeeping
      "Housekeeping keeps failing, disabling it for the rest of the process lifetime" fields
  else Journal.debug .housekeeping "Housekeeping failed" fields

/-- Counts a failure. -/
def fail (b : Bounded) (task error : String) : Tick × Bounded × Journal :=
  let failures := b.failures + 1
  let last := failures ≥ b.maxFailures
  (if last then .disabled else .failed failures,
    { b with failures, disabled := b.disabled || last },
    [entry task failures error last])

/-- Takes in how a run of the task ended, and the trace slot of the thread it ran on. -/
def absorb (b : Bounded) (task : String) (attempt : Attempt) (slot : Panic.Slot) :
    Tick × Bounded × Journal × Panic.Slot :=
  match attempt with
  | .succeeded => (.ran, { b with failures := 0 }, [], slot)
  | .failed cause =>
    let (tick, b, entries) := b.fail task cause.text
    (tick, b, entries, slot)
  | .panicked payload =>
    let (error, slot) := Panic.describe payload slot
    let (tick, b, entries) := b.fail task error
    (tick, b, entries, slot)

/-- One tick: a task that is switched off is not run. -/
def tick {σ : Type} (b : Bounded) (task : String)
    (run : Panic.Slot → σ → Attempt × Panic.Slot × σ) (slot : Panic.Slot) (s : σ) :
    Tick × Bounded × Journal × Panic.Slot × σ :=
  if b.disabled then (.skipped, b, [], slot, s)
  else
    let (attempt, slot, s) := run slot s
    let (tick, b, entries, slot) := b.absorb task attempt slot
    (tick, b, entries, slot, s)

/-- The state as it is shown to a developer. -/
def describe (b : Bounded) (task : String) : String :=
  "BoundedHousekeeping \x7b task: " ++ Text.quoted task
    ++ ", max_failures: " ++ toString b.maxFailures.toNat
    ++ ", consecutive_failures: " ++ toString b.failures.toNat
    ++ ", disabled: " ++ (if b.disabled then "true" else "false") ++ " \x7d"

end Bounded

end Housekeeping

end SupervisedWorker
