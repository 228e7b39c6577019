import SupervisedWorker.ExitStatus
import SupervisedWorker.OrphanNotice
import SupervisedWorker.Run

/-!
# From the end of a run to the end of the process

The process entry holds an exit guard over the registry while the run lasts. After a run that
stopped the guard is dropped and finds the registry sealed; after one that lost its agent it is
disarmed before it is dropped, since the hooks are left alone; after one whose services did not
start it is fired, so that what did start is closed.
-/

namespace SupervisedWorker

namespace Run

/-- The exit status that tells how a run ended. -/
def Ending.status : Ending → ExitStatus
  | .stopped _ _ => .graceful
  | .orphaned => .orphaned
  | .bootFailed _ => .bootFailure

/-- The entry about a run whose services did not start. -/
def bootEntry (failure : StartFailure) : JournalEntry :=
  Journal.error .commandLine "Worker failed to boot" [("error", failure.message)]

/-- Says on the console that the agent is gone, and keeps the console closed from then on. -/
def sayOrphaned (w : Worker) : Worker :=
  let w := { w with gate := w.gate.resume }.write OrphanNotice.entry
  { w with gate := w.gate.suppress }

/-- What the process entry does with its guard after a run that left the process like this, given
the sweep of a guard that goes off. -/
def settle (sweep : Worker → Report × Worker) (ending : Ending) (w : Worker) :
    ExitStatus × Worker :=
  let guard : ExitGuard := .armed
  (ending.status,
    match ending with
    | .stopped _ _ => (w.goOff sweep guard).2
    | .orphaned => sayOrphaned (w.goOff sweep guard.disarm).2
    | .bootFailed failure => ((w.write (bootEntry failure)).goOff sweep guard).2)

end Run

end SupervisedWorker
