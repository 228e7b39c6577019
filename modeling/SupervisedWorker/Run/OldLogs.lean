import SupervisedWorker.LogRetention
import SupervisedWorker.Run

/-!
# The housekeeping of a worker

In every round a worker removes the logs of its own that have grown too old.
-/

namespace SupervisedWorker

namespace Run

variable {σ : Type}

/-- Which logs of a worker are kept. -/
def logRetention (settings : Settings) (logName : String) : LogRetention :=
  ⟨settings.general.logDir, logName, settings.logRetention⟩

/-- Removing old logs as housekeeping; `now` reads the time. -/
def oldLogs (files : FileSystem σ) (now : σ → Int) (r : LogRetention) : Chore σ where
  name := "log-retention"
  perform slot s :=
    match r.run files (now s) s with
    | (.ok (), s) => (.succeeded, slot, s)
    | (.error cause, s) => (.failed cause, slot, s)

end Run

end SupervisedWorker
