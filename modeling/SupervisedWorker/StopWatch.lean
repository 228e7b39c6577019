import SupervisedWorker.Files.System
import SupervisedWorker.Journal
import SupervisedWorker.Time.Duration

/-!
# Watching for the stop marker

A supervised worker looks for its stop marker again and again, and removes the marker when it finds
it. That the marker cannot be removed is no reason not to stop; that it cannot be looked for is no
reason to stop. An interrupt that is seen before the marker leaves the marker alone.
-/

namespace SupervisedWorker

/-- What ended the watch. -/
inductive StopTrigger
  /-- The marker was found. -/
  | stopCommand
  | interrupted
deriving DecidableEq, Repr, Inhabited

/-- The marker, and how it is watched for and removed. -/
structure StopWatch where
  marker : String
  pollInterval : Duration
  deleteAttempts : UInt32
  deleteBackoff : Duration
deriving DecidableEq, Repr

namespace StopWatch

variable {σ : Type}

/-- How the watch reaches its surroundings. -/
structure Surroundings (σ : Type) where
  files : FileSystem σ
  /-- Writes to the journal. -/
  write : JournalEntry → σ → σ
  /-- Sleeps for a while. -/
  sleep : Duration → σ → σ
  /-- Whether the interrupt is seen. -/
  interrupted : σ → Bool
  /-- Sleeps for a while, or until the interrupt comes, and tells whether it came. -/
  doze : Duration → σ → Bool × σ

/-- The entry about an attempt that failed. -/
def attemptEntry (attempt : Nat) (e : FileError) : JournalEntry :=
  Journal.debug .stopWatch "Failed to delete stop marker"
    [("attempt", toString attempt), ("error", e.text)]

/-- The entry after the last attempt. -/
def giveUpEntry (attempts : Nat) : JournalEntry :=
  Journal.warn .stopWatch "Giving up on deleting stop marker" [("attempts", toString attempts)]

/-- The entry about a marker that cannot be looked for. -/
def probeEntry (e : FileError) : JournalEntry :=
  Journal.debug .stopWatch "Cannot stat stop marker" [("error", e.text)]

/-- How often the marker's removal is attempted: once at least. -/
def attempts (w : StopWatch) : Nat := (max w.deleteAttempts 1).toNat

/-- One attempt at removing the marker, and whether the marker is gone; one that has vanished is. -/
def removeOnce (w : StopWatch) (files : FileSystem σ) (write : JournalEntry → σ → σ)
    (attempt : Nat) (s : σ) : Bool × σ :=
  match files.remove w.marker s with
  | (.ok (), s) => (true, s)
  | (.error e, s) => if e = .missing then (true, s) else (false, write (attemptEntry attempt e) s)

/-- Whether the marker is there; that this cannot be told is noted, and counts as a no. -/
def seesMarker (w : StopWatch) (files : FileSystem σ) (write : JournalEntry → σ → σ) (s : σ) :
    Bool × σ :=
  match files.probe w.marker s with
  | (.ok (), s) => (true, s)
  | (.error e, s) => (false, if e = .missing then s else write (probeEntry e) s)

/-- Tries to remove the marker; `left` attempts remain, and `attempt` is the number of the next. -/
def consume (w : StopWatch) (around : Surroundings σ) : (left : Nat) → (attempt : Nat) → σ → σ
  | 0, _, s => around.write (giveUpEntry w.attempts) s
  | left + 1, attempt, s =>
    match w.removeOnce around.files around.write attempt s with
    | (true, s) => s
    | (false, s) =>
      consume w around left (attempt + 1) (if left = 0 then s else around.sleep w.deleteBackoff s)

/-- Looks for the marker once, and removes it if it is there. -/
def poll (w : StopWatch) (around : Surroundings σ) (s : σ) : Bool × σ :=
  match w.seesMarker around.files around.write s with
  | (true, s) => (true, w.consume around w.attempts 1 s)
  | (false, s) => (false, s)

/-- One round: what ended the watch, if something did. -/
def round (w : StopWatch) (around : Surroundings σ) (s : σ) : Option StopTrigger × σ :=
  if around.interrupted s then (some .interrupted, s)
  else
    match w.poll around s with
    | (true, s) => (some .stopCommand, s)
    | (false, s) =>
      match around.doze w.pollInterval s with
      | (true, s) => (some .interrupted, s)
      | (false, s) => (none, s)

/-- What ends the watch within a number of rounds. -/
def wait (w : StopWatch) (around : Surroundings σ) : (rounds : Nat) → σ → Option StopTrigger × σ
  | 0, s => (none, s)
  | rounds + 1, s =>
    match w.round around s with
    | (some trigger, s) => (some trigger, s)
    | (none, s) => w.wait around rounds s

end StopWatch

end SupervisedWorker
