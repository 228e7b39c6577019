/-!
# Exit statuses

The agent learns from the exit status how its worker ended.
-/

namespace SupervisedWorker

/-- How a worker process ended. -/
inductive ExitStatus
  /-- It was told to stop and did so in order. -/
  | graceful
  /-- It could not start. -/
  | bootFailure
  /-- Its agent disappeared. -/
  | orphaned
deriving DecidableEq, Repr, Inhabited

/-- The number that the process exits with. -/
def ExitStatus.code : ExitStatus → Nat
  | .graceful => 0
  | .bootFailure => 1
  | .orphaned => 2

end SupervisedWorker
