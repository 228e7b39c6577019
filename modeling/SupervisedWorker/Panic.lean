import SupervisedWorker.Failure

/-!
# Panics and their traces

Whoever catches a panic is handed its payload only. Where it was raised is left in a slot of the
thread, one slot for all panics of that thread, and is gone once it has been read. `describe` reads
the slot, so a trace shows in one description at most.
-/

namespace SupervisedWorker

namespace Panic

/-- What a panic was raised with. -/
inductive Payload
  /-- A text. -/
  | text (message : String)
  /-- Anything else; it has no text of its own. -/
  | other
deriving DecidableEq, Repr, Inhabited

/-- The payload as text. -/
def Payload.message : Payload → String
  | .text s => s
  | .other => "unknown panic payload"

/-- Where a panic was raised, and the stack at that moment. -/
structure Trace where
  location : String
  stack : String
deriving DecidableEq, Repr, Inhabited

/-- The trace as it follows a panic's message. -/
def Trace.text (t : Trace) : String := s!"at {t.location}\nstack backtrace:\n{t.stack}"

/-- A thread's slot for the trace of its last panic. -/
abbrev Slot := Option Trace

/-- Raising a panic overwrites what the slot held. -/
def record (t : Trace) (_ : Slot) : Slot := some t

/-- Reading the slot empties it. -/
def take (slot : Slot) : Option Trace × Slot := (slot, none)

/-- The description of a caught panic, with the trace that the slot still holds. -/
def describe (p : Payload) (slot : Slot) : String × Slot :=
  match take slot with
  | (some trace, slot) => (s!"panicked: {p.message} {trace.text}", slot)
  | (none, slot) => (s!"panicked: {p.message}", slot)

end Panic

/-- How a piece of work ended that may fail or panic. -/
inductive Attempt
  | succeeded
  | failed (cause : Failure)
  | panicked (payload : Panic.Payload)
deriving DecidableEq, Repr, Inhabited

end SupervisedWorker
