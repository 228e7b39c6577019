import SupervisedWorker.Hook.Registry

/-!
# The guard at the exit

The process entry holds a guard over the registry. Dropped or fired, the guard looks whether the
registry is sealed and drains it if not; the two are separate steps, so somebody else may drain in
between, and then nothing is left to run. A disarmed guard does nothing.
-/

namespace SupervisedWorker

/-- A guard is armed until it is disarmed or has looked at the registry. -/
inductive ExitGuard
  | armed
  | spent
deriving DecidableEq, Repr, Inhabited

namespace ExitGuard

/-- Releases the registry. -/
def disarm (_ : ExitGuard) : ExitGuard := .spent

/-- The first step of a guard that goes off: whether it will drain. -/
def looks {α : Type} (g : ExitGuard) (r : Registry α) : Bool := g == .armed && !r.drained

end ExitGuard

end SupervisedWorker
