import SupervisedWorker.Files.System

/-!
# Files behind a dialogue

A step that calls a file system can be answered from outside. It is taken with the answers that are
known; at the first call without an answer it notes the call, and what it does from there on is of
no account. Whoever drives the step answers that call and takes the step again from its start, with
one answer more, until none is missing. So every call is answered once and in order.
-/

namespace SupervisedWorker

/-- A call to a file system. -/
inductive FileCall
  | probe (path : String)
  | inspect (path : String)
  | list (path : String)
  | remove (path : String)
  | openFile (path : String)
  | tryLock (file : Nat)
  | unlock (file : Nat)
deriving DecidableEq, Repr

/-- The answer to a call, of the kind that the call asks for. -/
inductive FileReply
  | ended (answer : Except FileError Unit)
  | info (answer : Except FileError FileInfo)
  | names (answer : Except FileError (List (Except FileError FileName)))
  | number (answer : Except FileError Nat)
  | truth (answer : Except FileError Bool)

/-- The answers that no call has used yet, and the call that found none. -/
structure Dialogue where
  replies : List FileReply
  missing : Option FileCall

namespace Dialogue

/-- A dialogue with the given answers. -/
def knowing (replies : List FileReply) : Dialogue := ⟨replies, none⟩

/-- Makes a call. -/
def ask (call : FileCall) (d : Dialogue) : Option FileReply × Dialogue :=
  match d.missing, d.replies with
  | some _, _ => (none, d)
  | none, [] => (none, { d with missing := some call })
  | none, reply :: rest => (some reply, { d with replies := rest })

/-- The error where there is no fitting answer. -/
def noAnswer : FileError := .missing

/-- The calls whose answers come from a dialogue. -/
def system : FileSystem Dialogue where
  probe path d :=
    match d.ask (.probe path) with
    | (some (.ended answer), d) => (answer, d)
    | (_, d) => (.error noAnswer, d)
  inspect path d :=
    match d.ask (.inspect path) with
    | (some (.info answer), d) => (answer, d)
    | (_, d) => (.error noAnswer, d)
  list path d :=
    match d.ask (.list path) with
    | (some (.names answer), d) => (answer, d)
    | (_, d) => (.error noAnswer, d)
  remove path d :=
    match d.ask (.remove path) with
    | (some (.ended answer), d) => (answer, d)
    | (_, d) => (.error noAnswer, d)
  openFile path d :=
    match d.ask (.openFile path) with
    | (some (.number answer), d) => (answer, d)
    | (_, d) => (.error noAnswer, d)
  tryLock file d :=
    match d.ask (.tryLock file) with
    | (some (.truth answer), d) => (answer, d)
    | (_, d) => (.error noAnswer, d)
  unlock file d := (d.ask (.unlock file)).2

end Dialogue

end SupervisedWorker
