/-!
# Commands and what is wrong with them

The program has a command that runs a worker, one that validates settings and one that shows the
version, and it explains itself. This module says what can be asked for and how a refused command
line is answered; `CommandLine.Parse` reads command lines.
-/

namespace SupervisedWorker

namespace CommandLine

/-- The first word of a command line. -/
inductive Subcommand
  | run
  | validate
  | version
  | help
deriving DecidableEq, Repr, Inhabited

/-- An option, which always takes a value. -/
structure OptionSpec where
  name : String
  /-- Its short form. -/
  letter : Option Char
  /-- Whether the value is a path, which must not be empty. -/
  isPath : Bool
deriving DecidableEq, Repr, Inhabited

namespace OptionSpec

def config : OptionSpec := ⟨"config", some 'c', true⟩

def workDir : OptionSpec := ⟨"work-dir", none, true⟩

def services : OptionSpec := ⟨"services", some 's', false⟩

def agentId : OptionSpec := ⟨"agent-id", none, false⟩

def serviceId : OptionSpec := ⟨"service-id", none, false⟩

/-- What stands for the option's value in messages. -/
def placeholder (o : OptionSpec) : String :=
  String.ofList (o.name.toList.map fun c => if c == '-' then '_' else c.toUpper)

/-- The option in messages. -/
def title (o : OptionSpec) : String := s!"--{o.name} <{o.placeholder}>"

end OptionSpec

namespace Subcommand

/-- The command that a word names. -/
def ofWord? : String → Option Subcommand
  | "run" => some run
  | "validate" => some validate
  | "version" => some version
  | "help" => some help
  | _ => none

/-- The options of a command. -/
def options : Subcommand → List OptionSpec
  | run => [.config, .workDir, .services, .agentId, .serviceId]
  | validate => [.config]
  | version => []
  | help => []

/-- What a command does, in one line. -/
def about : Subcommand → String
  | run => "Run the worker until stopped"
  | validate => "Validate the configuration and print the effective settings"
  | version => "Display version information"
  | help => "Print this message or the help of the given subcommand(s)"

end Subcommand

/-- The options of a run; what is given wins over settings and environment. -/
structure RunOptions where
  config : Option String
  workDir : Option String
  services : Option String
  agentId : Option String
  serviceId : Option String
deriving DecidableEq, Repr, Inhabited

/-- What a command line asks for. -/
inductive Request
  | run (options : RunOptions)
  | validate (config : Option String)
  | version
  /-- The version in the form that other programs expect. -/
  | programVersion
  /-- Help about a command or the whole program, which may be brief. -/
  | help (topic : Option Subcommand) (brief : Bool)
deriving DecidableEq, Repr, Inhabited

/-- Why a command line is refused. -/
inductive UsageError
  /-- It names no command. -/
  | nothingAsked
  | unknownCommand (word : String)
  | unexpectedArgument (word : String)
  /-- A value for something that takes none. -/
  | unexpectedValue (value flag : String)
  | missingValue (o : OptionSpec)
  | repeated (o : OptionSpec)
  /-- One of two options that belong together is missing. -/
  | missingPartner
deriving DecidableEq, Repr, Inhabited

/-- The program in one line. -/
def brief : String := "Supervision core for cluster worker processes"

/-- The program in a longer line. -/
def description : String :=
  "Runs a cluster worker process: boots its services, watches the supervising agent and shuts "
    ++ "everything down in order when asked."

/-- The version of the program. -/
def versionNumber : String := "1.0.0-unstable"

/-- What a refused command line is told. -/
def UsageError.message : UsageError → String
  | .nothingAsked => brief
  | .unknownCommand word => s!"error: unrecognized subcommand '{word}'"
  | .unexpectedArgument word => s!"error: unexpected argument '{word}' found"
  | .unexpectedValue value flag =>
    s!"error: unexpected value '{value}' for '{flag}' found; no more were expected"
  | .missingValue o => s!"error: a value is required for '{o.title}' but none was supplied"
  | .repeated o => s!"error: the argument '{o.title}' cannot be used multiple times"
  | .missingPartner => "error: the following required arguments were not provided:"

/-- The help about a command or the whole program. -/
def helpText (topic : Option Subcommand) (isBrief : Bool) : String :=
  match topic with
  | some c => c.about
  | none => if isBrief then brief else description

end CommandLine

end SupervisedWorker
