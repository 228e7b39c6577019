import SupervisedWorker.CommandLine.Prepare
import SupervisedWorker.ExitStatus
import SupervisedWorker.Files.System

/-!
# Answers that need no worker

Most command lines are answered at once: what is printed to the output and to the error output, and
how the program exits.
-/

namespace SupervisedWorker

namespace CommandLine

/-- What the program prints before it exits, and with which status it does. -/
structure Answer where
  status : ExitStatus
  out : String
  err : String
deriving DecidableEq, Repr

namespace Answer

/-- Something is printed and all is well. -/
def saying (text : String) : Answer := ⟨.graceful, text ++ "\n", ""⟩

/-- What is said before settings are validated. -/
def announcement : Option String → String
  | some name => s!"Validating configuration file: {name}\n"
  | none => "No configuration file given, validating defaults and environment\n"

/-- Validates the settings from a file of the given name and shows them. -/
def validation (name : Option String)
    (file : Except Settings.LoadError (Option Settings.SourceFile))
    (environment : List (String × String)) : Answer :=
  match loadSettings file environment with
  | .ok s => ⟨.graceful, announcement name ++ "Configuration valid:\n" ++ s.toToml ++ "\n", ""⟩
  | .error e =>
    ⟨.bootFailure, announcement name, s!"Configuration invalid: {settingsTrouble e}\n"⟩

/-- The version. -/
def version : Answer := saying s!"Worker Supervisor {versionNumber}"

/-- The version in the form that other programs expect. -/
def programVersion : Answer := saying s!"worker-supervisor {versionNumber}"

/-- The help about a command or the whole program. -/
def help (topic : Option Subcommand) (isBrief : Bool) : Answer := saying (helpText topic isBrief)

/-- A run cannot be prepared. -/
def unprepared (e : PrepareError) : Answer :=
  ⟨.bootFailure, "", s!"Failed to start worker: {e.message}\n"⟩

/-- There is no directory for the log. -/
def noLog (logDir : String) (e : FileError) : Answer :=
  ⟨.bootFailure, "",
    s!"Failed to initialise logging: Failed to create log directory {logDir}: {e.text}\n"⟩

end Answer

/-- The exit status of a refused command line. -/
def refusedStatus : Nat := 2

end CommandLine

end SupervisedWorker
