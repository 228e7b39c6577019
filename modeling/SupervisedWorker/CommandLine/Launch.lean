import SupervisedWorker.CommandLine.Answer
import SupervisedWorker.CommandLine.Parse
import SupervisedWorker.Files.Edit
import SupervisedWorker.LogFilter
import SupervisedWorker.Run.Exit
import SupervisedWorker.Run.OldLogs
import SupervisedWorker.Run.Timeline

/-!
# Launching the program

A launch takes a command line, an environment and the files of the directory in which the program
is started, and shows what the program prints, with which status it exits and what it leaves behind.
The files lie in memory and the clock is that of `Run.Timeline`. A worker so started has no services
to offer.
-/

namespace SupervisedWorker

namespace CommandLine

/-- How the program is started. -/
structure Launch where
  words : List String
  environment : List (String × String)
  files : FileStore
  /-- When a termination signal comes, if one does. -/
  signal : Option Duration
deriving Repr

/-- What became of a launch. -/
structure Outcome where
  status : Nat
  out : String
  err : String
  /-- The entries of the journal that were shown. -/
  shown : Journal
  files : FileStore
deriving Repr

namespace Launch

/-- The value of a variable. -/
def environmentValue (l : Launch) (name : String) : Option String := List.lookup name l.environment

/-- An outcome without a run. -/
def answered (files : FileStore) (a : Answer) : Outcome :=
  ⟨a.status.code, a.out, a.err, [], files⟩

/-- The settings file of a given name, if one is given. -/
def settingsFile (l : Launch) (name : Option String) :
    Except Settings.LoadError (Option Settings.SourceFile) :=
  match name with
  | none => .ok none
  | some name =>
    (Settings.locate (fun path => l.files.isFile path) name).map fun path =>
      some ⟨Settings.sourceName path, (l.files.read path).toOption.getD ""⟩

/-! ## Running a worker -/

/-- The day as it occurs in the names of logs. -/
def day : String := "<DAY>"

/-- Makes the log of the day, and the directories above it if need be. -/
def openLog (path : String) (files : FileStore) : FileStore :=
  match files.write path "" (files.now + 1) with
  | (.ok _, files) => files
  | (.error _, files) =>
    let (_, files) := files.makeDirectories (FileStore.ancestors path).tail
    (files.write path "" (files.now + 1)).2

/-- The run of a worker with the given settings. -/
def plan (settings : Settings) (role : Role) (logName : String) : Run.Plan FileStore where
  settings := settings
  role := role
  catalog := .empty
  processId := "<PID>"
  clock := .masked
  files := FileStore.system
  time files := .ofNanos files.now
  sample files := (.zero, files)
  roundFinished := id
  housekeeping :=
    some (Run.oldLogs FileStore.system FileStore.now (Run.logRetention settings logName))

/-- How much may happen in a run. -/
def patience : Nat := 200000

/-- Runs a worker to its end. -/
def runPlan (l : Launch) (p : Run.Plan FileStore) (files : FileStore) : Outcome :=
  let agenda := match l.signal with
    | some time => [⟨.time time, [.record "signal", .raise]⟩]
    | none => []
  let worker := Worker.fresh (.ofStreams .unlimited .unlimited)
  let last := (Run.Timeline.play p patience (.start p worker files agenda)).state
  let (status, worker) := match last.ending? with
    | some ending => Run.settle (Worker.sweep p.hookLimit) ending last.worker
    | none => (.bootFailure, last.worker)
  let filter := LogFilter.ofText? (l.environmentValue "RUST_LOG")
  { status := status.code
    out := Text.readable worker.gate.out.received
    err := Text.readable worker.gate.err.received
    shown := worker.shown.filter filter.shows
    files := last.outside }

/-- Runs a worker. -/
def run (l : Launch) (o : RunOptions) : Outcome :=
  match prepare (l.settingsFile o.config) l.environment o with
  | .error e => answered l.files (.unprepared e)
  | .ok (settings, role) =>
    let logName := role.logName (l.environmentValue "WORKER_SERVICE_TYPE") settings.general.services
    let logDir := settings.general.logDir
    match l.files.makeDirectories (FileStore.ancestors logDir) with
    | (.error e, files) => answered files (.noLog logDir e)
    | (.ok (), files) =>
      l.runPlan (plan settings role logName)
        (openLog (joinPath logDir (logName ++ ".log." ++ day)) files)

/-- Does what the command line asks for, or says why it is refused. -/
def outcome (l : Launch) : Except UsageError Outcome :=
  (parse l.words).map fun
    | .run options => l.run options
    | .validate name =>
      answered l.files (.validation name (l.settingsFile name) l.environment)
    | .version => answered l.files .version
    | .programVersion => answered l.files .programVersion
    | .help topic isBrief => answered l.files (.help topic isBrief)

end Launch

end CommandLine

end SupervisedWorker
