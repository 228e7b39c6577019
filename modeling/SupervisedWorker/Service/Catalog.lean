import SupervisedWorker.Failure
import SupervisedWorker.Journal
import SupervisedWorker.Text.Quoted

/-!
# The catalog of services

The catalog knows how to start services. It looks names up without regard to the case of ASCII
letters and keeps its entries in the order of their keys. Booting starts the requested services one
after the other: a service that leaves something to close gets a hook, a name that is not in the
catalog is skipped, and the first service that cannot be started ends the boot.
-/

namespace SupervisedWorker

/-- Starters by key, in the order of the keys. -/
structure Catalog (β : Type) where
  entries : List (String × β)
deriving Repr, Inhabited

/-- A requested service that could not be started. -/
structure StartFailure where
  /-- The service's name, as it was requested. -/
  name : String
  cause : Failure
deriving DecidableEq, Repr, Inhabited

/-- The text of a start failure. -/
def StartFailure.message (f : StartFailure) : String :=
  s!"failed to start service {f.name}: {f.cause.text}"

namespace Catalog

variable {α β σ : Type}

def empty : Catalog β := ⟨[]⟩

/-- The key of a name: its ASCII letters as capitals. -/
def key (name : String) : String := String.ofList (name.toList.map Char.toUpper)

/-- Puts a starter in its place, where it replaces one of the same key. -/
def insertAt (k : String) (starter : β) : List (String × β) → List (String × β)
  | [] => [(k, starter)]
  | (k', s') :: rest =>
    if k = k' then (k, starter) :: rest
    else if k < k' then (k, starter) :: (k', s') :: rest
    else (k', s') :: insertAt k starter rest

/-- Adds or replaces the starter of a name. -/
def register (c : Catalog β) (name : String) (starter : β) : Catalog β :=
  ⟨insertAt (key name) starter c.entries⟩

/-- The starter of a name. -/
def find? (c : Catalog β) (name : String) : Option β := c.entries.lookup (key name)

/-- The name of the hook that closes a service. -/
def hookName (service : String) : String := "service:" ++ service

/-- How the catalog reaches its process. -/
structure Boot (α β σ : Type) where
  /-- Starts a service, which may leave something to close. -/
  start : β → String → σ → Except Failure (Option α) × σ
  /-- Registers a hook of the given name. -/
  attach : String → String → α → σ → σ
  /-- Writes to the journal. -/
  write : JournalEntry → σ → σ

/-- The entry about a name that is not in the catalog. -/
def skipEntry (service : String) : JournalEntry :=
  Journal.warn .services "No starter registered for service, skipping" [("service", service)]

/-- Starts the requested services in order, `started` of which have been started before, and
answers how many that makes. -/
def bootFrom (c : Catalog β) (b : Boot α β σ) (started : Nat) :
    List String → σ → Except StartFailure Nat × σ
  | [], s => (.ok started, s)
  | name :: rest, s =>
    match c.find? name with
    | none => bootFrom c b started rest (b.write (skipEntry name) s)
    | some starter =>
      match b.start starter name s with
      | (.error cause, s) => (.error ⟨name, cause⟩, s)
      | (.ok none, s) => bootFrom c b (started + 1) rest s
      | (.ok (some close), s) =>
        bootFrom c b (started + 1) rest (b.attach (hookName name) name close s)

/-- Starts the requested services in order. -/
def boot (c : Catalog β) (b : Boot α β σ) (names : List String) (s : σ) :
    Except StartFailure Nat × σ :=
  bootFrom c b 0 names s

/-- The keys of the catalog, as they are shown to a developer. -/
def describe (c : Catalog β) : String :=
  "ServiceCatalog \x7b services: ["
    ++ String.intercalate ", " (c.entries.map fun e => Text.quoted e.1) ++ "] \x7d"

end Catalog

end SupervisedWorker
