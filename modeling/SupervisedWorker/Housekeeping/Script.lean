import SupervisedWorker.Housekeeping.Bounded

/-!
# Scripted housekeeping

A scripted task ends its calls as the script says, one entry for each, and succeeds when the script
is over.
-/

namespace SupervisedWorker

namespace Housekeeping

/-- What is left of a script, and how often the task was called. -/
structure Script where
  rest : List Attempt
  calls : Nat
deriving DecidableEq, Repr, Inhabited

namespace Script

/-- Where scripted tasks panic; a script has neither place nor stack. -/
def trace : Panic.Trace := ⟨"<LOCATION>", "<TRACE>"⟩

/-- One call of the task. -/
def run (slot : Panic.Slot) (s : Script) : Attempt × Panic.Slot × Script :=
  match s.rest with
  | [] => (.succeeded, slot, { s with calls := s.calls + 1 })
  | attempt :: rest =>
    let slot := match attempt with
      | .panicked _ => Panic.record trace slot
      | _ => slot
    (attempt, slot, ⟨rest, s.calls + 1⟩)

/-- Ticks a number of times: what each did, the state of the task after it, and how often the task
had been called by then. -/
def tickAll (task : String) (ticks : Nat) (b : Bounded) (slot : Panic.Slot) (s : Script) :
    List (Tick × Bounded × Nat) × Bounded × Journal :=
  match ticks with
  | 0 => ([], b, [])
  | n + 1 =>
    let (tick, b, entries, slot, s) := b.tick task run slot s
    let (later, last, laterEntries) := tickAll task n b slot s
    ((tick, b, s.calls) :: later, last, entries ++ laterEntries)

end Script

end Housekeeping

end SupervisedWorker
