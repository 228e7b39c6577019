/-!
# The journal of a process

Entries in the order in which they were written. Each has a severity, a topic, a message and named
fields, whose values are kept as text.
-/

namespace SupervisedWorker

/-- How much an entry matters, the gravest first. -/
inductive Severity
  | error
  | warn
  | info
  | debug
deriving DecidableEq, Repr, Inhabited

/-- The graver the smaller. -/
def Severity.rank : Severity → Nat
  | .error => 0
  | .warn => 1
  | .info => 2
  | .debug => 3

/-- The severity as the journal shows it. -/
def Severity.label : Severity → String
  | .error => "ERROR"
  | .warn => "WARN"
  | .info => "INFO"
  | .debug => "DEBUG"

/-- What an entry is about. -/
inductive Topic
  | services
  | hooks
  | registry
  | stopWatch
  | monitor
  | housekeeping
  | interrupt
  | run
  | exit
  | commandLine
deriving DecidableEq, Repr, Inhabited

/-- The name by which filters select a topic. -/
def Topic.name : Topic → String
  | .services => "worker_supervisor::services::catalog"
  | .hooks => "worker_supervisor::shutdown::coordinator"
  | .registry => "worker_supervisor::shutdown::registry"
  | .stopWatch => "worker_supervisor::watcher::stop_command"
  | .monitor => "worker_supervisor::monitor::monitor"
  | .housekeeping => "worker_supervisor::monitor::housekeeping"
  | .interrupt => "worker_supervisor::helpers::shutdown"
  | .run => "worker_supervisor::runtime::runtime"
  | .exit => "worker_supervisor::runtime::exit"
  | .commandLine => "worker_supervisor::cli::cli"

/-- One entry of the journal. -/
structure JournalEntry where
  severity : Severity
  topic : Topic
  message : String
  fields : List (String × String)
deriving DecidableEq, Repr, Inhabited

/-- Entries, the oldest first. -/
abbrev Journal := List JournalEntry

namespace Journal

def error (topic : Topic) (message : String) (fields : List (String × String)) : JournalEntry :=
  ⟨.error, topic, message, fields⟩

def warn (topic : Topic) (message : String) (fields : List (String × String)) : JournalEntry :=
  ⟨.warn, topic, message, fields⟩

def info (topic : Topic) (message : String) (fields : List (String × String)) : JournalEntry :=
  ⟨.info, topic, message, fields⟩

def debug (topic : Topic) (message : String) (fields : List (String × String)) : JournalEntry :=
  ⟨.debug, topic, message, fields⟩

/-- The entries that are at least as grave as `least`. -/
def atLeast (least : Severity) (j : Journal) : Journal :=
  j.filter fun e => e.severity.rank ≤ least.rank

end Journal

end SupervisedWorker
