import SupervisedWorker.CommandLine.Answer
import SupervisedWorker.CommandLine.Parse
import SupervisedWorker.LogFilter
import SupervisedWorker.Run.Exit
import SupervisedWorker.Run.Live
import SupervisedWorker.Time.Timestamp

/-!
# The program

The outer layer of the program: it reads what the library asks for, lets the library decide, and
prints, sleeps and exits as the library says.
-/

namespace SupervisedWorker

namespace Program

/-! ## Files -/

/-- A path as the calls below take it. -/
def located (path : String) := (IO.FS.DirEntry.mk path "").root

/-- The error of a failed call. -/
def fileError : IO.Error → FileError
  | .noFileOrDirectory _ code _ => .system code.toNat
  | .noSuchThing _ code _ => .system code.toNat
  | .alreadyExists _ code _ => .system code.toNat
  | .inappropriateType _ code _ => .system code.toNat
  | .permissionDenied _ code _ => .system code.toNat
  | .invalidArgument _ code _ => .system code.toNat
  | .resourceBusy code _ => .system code.toNat
  | .otherError code _ => .system code.toNat
  | _ => .system 5

/-- Does something and keeps the error if it fails. -/
def tried {α : Type} (action : IO α) : IO (Except FileError α) := do
  try return .ok (← action)
  catch e => return .error (fileError e)

/-- A moment in nanoseconds since 1970. -/
def nanosOf (t : IO.FS.SystemTime) : Int := t.sec * 1000000000 + t.nsec.toNat

/-- What is known about a file. -/
def infoOf (m : IO.FS.Metadata) : FileInfo :=
  ⟨match m.type with | .file => true | _ => false, nanosOf m.modified⟩

/-- Answers a call; one file is open at a time. -/
def answer (opened : IO.Ref (Option IO.FS.Handle)) : FileCall → IO FileReply
  | .probe path => return .ended (← tried do discard (located path).metadata)
  | .inspect path => return .info (← tried do return infoOf (← (located path).symlinkMetadata))
  | .list path =>
    return .names (← tried do
      return (← (located path).readDir).toList.map fun e => .ok (Text.utf8 e.fileName))
  | .remove path => return .ended (← tried (IO.FS.removeFile path))
  | .openFile path =>
    return .number (← tried do
      opened.set (some (← IO.FS.Handle.mk path .readWrite))
      return 0)
  | .tryLock _ =>
    return .truth (← tried do
      match ← opened.get with
      | some file => file.tryLock
      | none => return false)
  | .unlock _ =>
    return .ended (← tried do
      match ← opened.get with
      | some file => file.unlock
      | none => return ())

/-- Whether a path leads to a file. -/
def isFile (path : String) : IO Bool := do
  match ← tried (located path).metadata with
  | .ok m => return (infoOf m).isRegular
  | .error _ => return false

/-- The settings file of a given name. -/
def settingsFile (name : Option String) :
    IO (Except Settings.LoadError (Option Settings.SourceFile)) := do
  match name with
  | none => return .ok none
  | some name =>
    let own ← isFile name
    let ended ← isFile (name ++ ".toml")
    match Settings.locate (fun path => if path = name then own else ended) name with
    | .error e => return .error e
    | .ok path =>
      match ← tried (IO.FS.readFile path) with
      | .ok content => return .ok (some ⟨Settings.sourceName path, content⟩)
      | .error _ => return .error .notToml

/-! ## The process -/

/-- The variables of the process. -/
def environment : IO (List (String × String)) := do
  let bytes ← IO.FS.readBinFile "/proc/self/environ"
  let entries := Text.pieces (· == '\x00') (Text.readable bytes.toList).toList
  return entries.filterMap fun entry =>
    match entry.span (· ≠ '=') with
    | (name, _ :: value) => some (String.ofList name, String.ofList value)
    | (_, []) => none

/-- The number of the process. -/
def processId : IO String := do
  let stat ← IO.FS.readFile "/proc/self/stat"
  return String.ofList (stat.toList.takeWhile (· ≠ ' '))

/-- The time in nanoseconds since 1970. -/
def wallClock : IO Int := do
  match ← tried (located "/proc/self").metadata with
  | .ok m => return nanosOf m.modified
  | .error _ => return 0

/-- A line of the log. -/
def logLine (now : Int) (e : JournalEntry) : String :=
  let fields := String.join (e.fields.map fun f => s!" {f.1}={f.2}")
  s!"{(Timestamp.ofNanos now).text} {e.severity.label} {e.message}{fields}\n"

/-- Writes to a stream that may have lost its reader. -/
def print (stream : IO.FS.Stream) (text : String) : IO Unit := do
  if text ≠ "" then
    try
      stream.putStr text
      stream.flush
    catch _ => return ()

/-! ## Running -/

/-- Where the run writes: the log of the day and the filter for its entries. -/
structure Log where
  file : IO.FS.Handle
  filter : LogFilter

/-- Passes on what the worker has printed and written. -/
def passOn (log : Log) (now : Int) (w : Worker) : IO Unit := do
  for e in w.journal.filter log.filter.shows do
    log.file.putStr (logLine now e)
  log.file.flush
  let shown := String.join ((w.shown.filter log.filter.shows).map (logLine now))
  print (← IO.getStdout) (shown ++ Text.readable w.gate.out.received)
  print (← IO.getStderr) (Text.readable w.gate.err.received)

/-- Runs a worker to its end. -/
partial def loop (p : Run.Plan Run.Live) (log : Log) (started : Nat) (wall : Int)
    (opened : IO.Ref (Option IO.FS.Handle)) (replies : List FileReply)
    (t : Run.Timeline Run.Live) : IO (Run.Timeline Run.Live) := do
  let elapsed := (← IO.monoNanosNow) - started
  let clock : Duration := ⟨elapsed⟩
  let now := wall + elapsed
  if t.state.ending?.isSome then return t
  else if replies.isEmpty && (Run.Live.rest p clock t).any (Duration.zero < ·) then
    IO.sleep 1
    loop p log started wall opened [] t
  else
    match Run.Live.attempt p clock now replies t with
    | .needs call => loop p log started wall opened (replies ++ [← answer opened call]) t
    | .took t =>
      passOn log now t.state.worker
      loop p log started wall opened [] (Run.Live.forget t)
    | .nothing =>
      IO.sleep 10
      loop p log started wall opened [] t

/-- Opens the log of the day. -/
def openLog (settings : Settings) (logName : String) (now : Int)
    (environment : List (String × String)) : IO (Except FileError Log) := do
  let day := String.ofList ((Timestamp.ofNanos now).text.toList.take 10)
  let path := joinPath settings.general.logDir (logName ++ ".log." ++ day)
  tried do
    if settings.general.logDir ≠ "" then IO.FS.createDirAll settings.general.logDir
    return ⟨← IO.FS.Handle.mk path .append, .ofText? (List.lookup "RUST_LOG" environment)⟩

/-- Prints an answer that needs no worker. -/
def present (a : CommandLine.Answer) : IO ExitStatus := do
  IO.print a.out
  IO.eprint a.err
  return a.status

/-- Runs a worker and says how the process exits. -/
def run (o : CommandLine.RunOptions) : IO ExitStatus := do
  let environment ← environment
  match CommandLine.prepare (← settingsFile o.config) environment o with
  | .error e => present (.unprepared e)
  | .ok (settings, role) =>
    let logName :=
      role.logName (List.lookup "WORKER_SERVICE_TYPE" environment) settings.general.services
    let wall ← wallClock
    match ← openLog settings logName wall environment with
    | .error e => present (.noLog settings.general.logDir e)
    | .ok log =>
      let p := Run.Live.plan settings role logName (← processId)
      let started ← IO.monoNanosNow
      let last ← loop p log started wall (← IO.mkRef none) [] (Run.Live.start p)
      match last.state.ending? with
      | none => return .bootFailure
      | some ending =>
        let (status, worker) := Run.settle (Worker.sweep p.hookLimit) ending last.state.worker
        passOn log (wall + ((← IO.monoNanosNow) - started)) worker
        return status

/-- Does what the command line asks for. -/
def perform (words : List String) : IO UInt32 := do
  match CommandLine.parse words with
  | .error e =>
    IO.eprintln e.message
    return .ofNat CommandLine.refusedStatus
  | .ok request =>
    let status ← match request with
      | .run options => run options
      | .validate name => do
        present (.validation name (← settingsFile name) (← environment))
      | .version => present .version
      | .programVersion => present .programVersion
      | .help topic isBrief => present (.help topic isBrief)
    return .ofNat status.code

end Program

end SupervisedWorker

def main (words : List String) : IO UInt32 := SupervisedWorker.Program.perform words
