import SupervisedWorker.Housekeeping.Script
import SupervisedWorker.Monitor

/-!
# Scripted monitors

Everything that the monitor calls answers as a script says and notes that it was called. One of the
calls cancels the monitor, and in any case the fiftieth of a kind does, so a scripted monitor always
ends.
-/

namespace SupervisedWorker

namespace Monitor

/-- What the monitor calls. -/
inductive Callee
  | sample
  | housekeeping
  | agent
  | roundFinished
deriving DecidableEq, Repr, Inhabited

/-- What the calls answer, and what is noted about them. -/
structure Scene where
  /-- What the samples show; the last value holds from then on. -/
  pauses : List Duration
  housekeeping : Housekeeping.Bounded
  housekeepingScript : Housekeeping.Script
  slot : Panic.Slot
  /-- What is left of the agent's answers; it lives when they are over. -/
  lives : List AgentLife
  /-- The number of the next sample, the first being number 0. -/
  samples : Nat
  /-- How often the agent was asked. -/
  questions : Nat
  /-- The call that cancels, and its number. -/
  cancelAt : Option (Callee × Nat)
  cancelled : Bool
  /-- What was called, in order. -/
  trace : List Callee
  journal : Journal
deriving Repr

namespace Scene

/-- The number of calls of a kind after which a script ends. -/
def patience : Nat := 50

/-- Notes a call. -/
def note (callee : Callee) (number : Nat) (s : Scene) : Scene :=
  { s with
    trace := s.trace ++ [callee]
    cancelled := s.cancelled || s.cancelAt == some (callee, number) || patience ≤ number }

/-- The value that a sample shows. -/
def pause (s : Scene) : Duration := (s.pauses[s.samples]?).getD (s.pauses.getLast?.getD .zero)

/-- The task's name. -/
def task : String := "task"

/-- The housekeeping of one round. -/
def tick (s : Scene) : Scene :=
  let s := if s.housekeeping.disabled then s
    else s.note .housekeeping (s.housekeepingScript.calls + 1)
  let (_, housekeeping, entries, slot, housekeepingScript) :=
    s.housekeeping.tick task Housekeeping.Script.run s.slot s.housekeepingScript
  { s with housekeeping, housekeepingScript, slot, journal := s.journal ++ entries }

/-- Asks the agent. -/
def ask (s : Scene) : AgentLife × Scene :=
  let life := s.lives.head?.getD .alive
  let questions := s.questions + 1
  (life, { s with lives := s.lives.tail, questions }.note .agent questions)

/-- The surroundings of a scripted monitor, with or without housekeeping and an agent. -/
def surroundings (keepsHouse asksAgent : Bool) : Surroundings Scene where
  cancelled s := s.cancelled
  sample s := (s.pause, { s with samples := s.samples + 1 }.note .sample s.samples)
  housekeeping := if keepsHouse then some tick else none
  agent := if asksAgent then some ask else none
  roundFinished s := s.note .roundFinished (s.samples - 1)
  write e s := { s with journal := s.journal ++ [e] }

end Scene

/-- Runs a scripted monitor to its end. -/
def play (m : Monitor) (keepsHouse asksAgent : Bool) (s : Scene) : Phase × Scene :=
  m.steps (Scene.surroundings keepsHouse asksAgent) (5 * (Scene.patience + 2)) .starting s

end Monitor

end SupervisedWorker
