import SupervisedWorker.Journal

/-!
# The interrupt of a process

One interrupt stops everything that runs for long. Triggering it takes two steps: the reason is
recorded, unless there is one already, and then the interrupt is raised. Whoever sees it raised
therefore finds a reason.

Loops hold tokens. A token is cancelled by the interrupt or on its own, and cancelling it on its own
concerns nobody else.
-/

namespace SupervisedWorker

/-- An interrupt: the reason recorded first, whether it is raised, and, token by token, whether the
token has been cancelled on its own. -/
structure Interrupt where
  reason : Option String
  raised : Bool
  tokens : List Bool
deriving DecidableEq, Repr, Inhabited

namespace Interrupt

/-- An interrupt that nobody has triggered. -/
def fresh : Interrupt := ⟨none, false, []⟩

/-- The first step of a trigger keeps a reason that is there already. -/
def recordReason (i : Interrupt) (reason : String) : Interrupt :=
  { i with reason := some (i.reason.getD reason) }

/-- The second step of a trigger. -/
def raise (i : Interrupt) : Interrupt := { i with raised := true }

/-- Triggers the interrupt. -/
def trigger (i : Interrupt) (reason : String) : Interrupt := (i.recordReason reason).raise

/-- What a trigger leaves in the journal: only the first reason is worth an entry. -/
def triggerEntries (i : Interrupt) (reason : String) : Journal :=
  match i.reason with
  | none => [Journal.info .interrupt "Shutdown triggered" [("reason", reason)]]
  | some _ => []

/-- Hands out a token; its number is that of the tokens before it. -/
def subscribe (i : Interrupt) : Nat × Interrupt :=
  (i.tokens.length, { i with tokens := i.tokens ++ [false] })

/-- Cancels one token on its own. -/
def cancelToken (i : Interrupt) (token : Nat) : Interrupt :=
  { i with tokens := i.tokens.set token true }

/-- Whether a token is cancelled. -/
def isCancelled (i : Interrupt) (token : Nat) : Bool := i.raised || i.tokens.getD token false

end Interrupt

end SupervisedWorker
