import SupervisedWorker.Number.Numeral
import SupervisedWorker.Number.Shortest
import SupervisedWorker.Settings
import SupervisedWorker.Settings.Tree
import SupervisedWorker.Text.Lowercase
import SupervisedWorker.Text.Quoted

/-!
# Raw settings decoded

Every field has a type, and raw values of other types are converted where that makes sense: a number
may come as a text, a truth value as a word, and so on. Where it does not, the error names what was
found, what was expected, the key and, for a value that was taken from a source as it is, the
source. A section may also be a list, whose items then are its fields in order.
-/

namespace SupervisedWorker

namespace Settings

/-- What was found where something else was expected. -/
inductive Found
  | integer (n : Int)
  | unsigned (n : Nat)
  | decimal (x : Binary64)
  | boolean (b : Bool)
  | text (s : String)
  | list
  | table
  | nothing
deriving DecidableEq, Repr, Inhabited

/-- What a field takes. -/
inductive FieldKind
  /-- A number that is not negative. -/
  | unsigned
  | integer
  /-- A number below `2 ^ 32`. -/
  | word
  | boolean
  | text
deriving DecidableEq, Repr, Inhabited

/-- The words for what a field takes. -/
def FieldKind.phrase : FieldKind → String
  | .unsigned => "an unsigned 64 bit or less integer"
  | .integer => "an integer"
  | .word => "an unsigned 32 bit integer"
  | .boolean => "a boolean"
  | .text => "a string"

/-- What has parts. -/
inductive Shape
  /-- The sequence of the services. -/
  | sequence
  /-- The section that the given name is used for in messages. -/
  | record (name : String)
deriving DecidableEq, Repr, Inhabited

/-- The words for a shape. -/
def Shape.phrase : Shape → String
  | .sequence => "a sequence"
  | .record name => s!"struct {name}"

/-- Why settings cannot be loaded. -/
inductive LoadError
  /-- There is no file of that name. -/
  | noSuchFile (name : String)
  /-- The file is no TOML. -/
  | notToml
  /-- A value cannot be converted to what its field takes. -/
  | wrongField (found : Found) (expected : FieldKind) (key : String) (origin : Option String)
  /-- A value has no parts, but its key needs some. -/
  | wrongShape (found : Found) (expected : Shape) (key : String)
deriving DecidableEq, Repr, Inhabited

namespace Found

/-- What was found, for an error about a field. -/
def fieldPhrase : Found → String
  | integer n => s!"64-bit integer `{n}`"
  | unsigned n => s!"64-bit unsigned integer `{n}`"
  | decimal x => s!"floating point `{x.text}`"
  | boolean b => if b then "boolean `true`" else "boolean `false`"
  | text s => "string " ++ Text.quoted s
  | list => "sequence"
  | table => "map"
  | nothing => "unit value"

/-- What was found, for an error about a shape. -/
def shapePhrase : Found → String
  | integer n => s!"integer `{n}`"
  | unsigned n => s!"integer `{n}`"
  | decimal x => s!"floating point `{x.pointedText}`"
  | boolean b => if b then "boolean `true`" else "boolean `false`"
  | text s => "string " ++ Text.quoted s
  | list => "sequence"
  | table => "map"
  | nothing => "unit value"

/-- What a node of a tree is. -/
def ofTree : Tree → Found
  | .unset => nothing
  | .scalar _ (.boolean b) => boolean b
  | .scalar _ (.integer n) => integer n
  | .scalar _ (.decimal x) => decimal x
  | .scalar _ (.text s) => text s
  | .list _ _ => list
  | .table _ _ => table

end Found

/-- The text of a load error. -/
def LoadError.message : LoadError → String
  | .noSuchFile name => s!"configuration file \"{name}\" not found"
  | .notToml => "the configuration file is not TOML"
  | .wrongField found expected key origin =>
    s!"invalid type: {found.fieldPhrase}, expected {expected.phrase} for key `{key}`"
      ++ (match origin with | some source => s!" in {source}" | none => "")
  | .wrongShape found expected key =>
    s!"invalid type: {found.shapePhrase}, expected {expected.phrase} for key `{key}`"

/-! ## Fields -/

/-- The source that a node was taken from. -/
def Tree.origin? : Tree → Option String
  | .unset => none
  | .scalar origin _ => origin
  | .list origin _ => origin
  | .table origin _ => origin

/-- The error about a node that is none of the things that its field takes. -/
def mismatch (t : Tree) (expected : FieldKind) (key : String) : LoadError :=
  .wrongField (.ofTree t) expected key t.origin?

/-- Words for a truth value, in lower case. -/
def truthWord (word : String) : Option Bool :=
  if ["true", "on", "yes"].contains word then some true
  else if ["false", "off", "no"].contains word then some false
  else none

/-- The number that a text stands for. -/
def textNumber (s : String) : Option Nat :=
  match truthWord (Text.lower s) with
  | some b => some (if b then 1 else 0)
  | none => (Numeral.unsigned s.toList).bind fun n => if n < UInt64.size then some n else none

/-- A number of 64 bits. -/
def decodeNumber (key : String) (t : Tree) : Except LoadError Nat :=
  match t with
  | .scalar origin (.integer n) =>
    if n < 0 then .error (.wrongField (.integer n) .unsigned key origin) else .ok n.toNat
  | .scalar _ (.boolean b) => .ok (if b then 1 else 0)
  | .scalar _ (.decimal x) => .ok (x.roundWithin (UInt64.size - 1))
  | .scalar origin (.text s) =>
    match textNumber s with
    | some n => .ok n
    | none => .error (.wrongField (.text s) .integer key origin)
  | t => .error (mismatch t .integer key)

def decodeUInt64 (key : String) (t : Tree) : Except LoadError UInt64 :=
  (decodeNumber key t).map UInt64.ofNat

/-- A number of 32 bits. -/
def decodeUInt32 (key : String) (t : Tree) : Except LoadError UInt32 := do
  let n ← decodeNumber key t
  if n < UInt32.size then return .ofNat n
  else .error (.wrongField (.unsigned n) .word key none)

/-- A truth value. Every number but zero is true, and so is what is not a number. -/
def decodeBool (key : String) (t : Tree) : Except LoadError Bool :=
  match t with
  | .scalar _ (.boolean b) => .ok b
  | .scalar _ (.integer n) => .ok (n != 0)
  | .scalar _ (.decimal x) => .ok (!x.isZero)
  | .scalar origin (.text s) =>
    let word := Text.lower s
    if word = "1" then .ok true
    else if word = "0" then .ok false
    else
      match truthWord word with
      | some b => .ok b
      | none => .error (.wrongField (.text word) .boolean key origin)
  | t => .error (mismatch t .boolean key)

/-- A text. -/
def decodeText (key : String) (t : Tree) : Except LoadError String :=
  match t with
  | .scalar _ (.text s) => .ok s
  | .scalar _ (.boolean b) => .ok (if b then "true" else "false")
  | .scalar _ (.integer n) => .ok (toString n)
  | .scalar _ (.decimal x) => .ok x.text
  | t => .error (mismatch t .text key)

/-- Texts, the first of which is number `n`. -/
def decodeItems (key : String) (n : Nat) : List Tree → Except LoadError (List String)
  | [] => .ok []
  | t :: rest => do
    let s ← decodeText s!"{key}[{n}]" t
    return s :: (← decodeItems key (n + 1) rest)

/-- A list of texts. -/
def decodeTexts (key : String) (t : Tree) : Except LoadError (List String) :=
  match t with
  | .list _ items => decodeItems key 0 items
  | t => .error (.wrongShape (.ofTree t) .sequence key)

/-! ## Sections -/

/-- What a section is found as. -/
inductive SectionSource
  | missing
  | byKey (name : String) (entries : List (String × Tree))
  | byPlace (name : String) (items : List Tree)
deriving Repr, Inhabited

/-- Looks a section up. -/
def findSection (name record : String) (t : Tree) : Except LoadError SectionSource :=
  match t.child? name with
  | none => .ok .missing
  | some (.table _ entries) => .ok (.byKey name entries)
  | some (.list _ items) => .ok (.byPlace name items)
  | some node => .error (.wrongShape (.ofTree node) (.record record) name)

/-- The node of a field and its key in messages, given the field's name and its place. -/
def SectionSource.field? (source : SectionSource) (field : String) (place : Nat) :
    Option (String × Tree) :=
  match source with
  | .missing => none
  | .byKey name entries => (entries.lookup field).map (s!"{name}.{field}", ·)
  | .byPlace name items => items[place]?.map (s!"{name}[{place}]", ·)

/-- Decodes a field; a missing one keeps its default. -/
def SectionSource.read {α : Type} (source : SectionSource) (field : String) (place : Nat)
    (decode : String → Tree → Except LoadError α) (default : α) : Except LoadError α :=
  match source.field? field place with
  | some (key, t) => decode key t
  | none => .ok default

def decodeGeneral (t : Tree) : Except LoadError GeneralSettings := do
  let d := default.general
  let s ← findSection "general" "GeneralConfig" t
  return {
    workDir := ← s.read "work_dir" 0 decodeText d.workDir
    services := ← s.read "services" 1 decodeTexts d.services
    logDir := ← s.read "log_dir" 2 decodeText d.logDir
    logRetentionDays := ← s.read "log_retention_days" 3 decodeUInt64 d.logRetentionDays
    tokioConsole := ← s.read "tokio_console" 4 decodeBool d.tokioConsole }

def decodeMonitor (t : Tree) : Except LoadError MonitorSettings := do
  let d := default.monitor
  let s ← findSection "monitor" "MonitorConfig" t
  return {
    periodMs := ← s.read "period_ms" 0 decodeUInt64 d.periodMs
    pauseWarningMs := ← s.read "pause_warning_ms" 1 decodeUInt64 d.pauseWarningMs
    housekeepingEnabled := ← s.read "housekeeping_enabled" 2 decodeBool d.housekeepingEnabled
    housekeepingMaxFailures :=
      ← s.read "housekeeping_max_failures" 3 decodeUInt32 d.housekeepingMaxFailures }

def decodeWatcher (t : Tree) : Except LoadError WatcherSettings := do
  let d := default.watcher
  let s ← findSection "watcher" "WatcherConfig" t
  return {
    pollIntervalMs := ← s.read "poll_interval_ms" 0 decodeUInt64 d.pollIntervalMs
    deleteAttempts := ← s.read "delete_attempts" 1 decodeUInt32 d.deleteAttempts
    deleteBackoffMs := ← s.read "delete_backoff_ms" 2 decodeUInt64 d.deleteBackoffMs }

def decodeShutdown (t : Tree) : Except LoadError ShutdownSettings := do
  let d := default.shutdown
  let s ← findSection "shutdown" "ShutdownConfig" t
  return {
    hookTimeoutMs := ← s.read "hook_timeout_ms" 0 decodeUInt64 d.hookTimeoutMs
    completionToken := ← s.read "completion_token" 1 decodeText d.completionToken
    exitLingerMs := ← s.read "exit_linger_ms" 2 decodeUInt64 d.exitLingerMs
    signalLingerMs := ← s.read "signal_linger_ms" 3 decodeUInt64 d.signalLingerMs
    orphanGraceMs := ← s.read "orphan_grace_ms" 4 decodeUInt64 d.orphanGraceMs }

def decodeProbe (t : Tree) : Except LoadError ProbeSettings := do
  let s ← findSection "probe" "ProbeConfig" t
  return { probePrefix := ← s.read "prefix" 0 decodeText default.probe.probePrefix }

/-- Decodes a whole tree; whatever it holds under other keys is passed over. -/
def decode (t : Tree) : Except LoadError Settings := do
  return {
    general := ← decodeGeneral t
    monitor := ← decodeMonitor t
    watcher := ← decodeWatcher t
    shutdown := ← decodeShutdown t
    probe := ← decodeProbe t }

end Settings

end SupervisedWorker
