import SupervisedWorker.Hook.Script
import SupervisedWorker.Service.Catalog

/-!
# Scripted services

A scripted starter notes that it was asked to start and then either fails or starts, with or
without a hook that closes the service again.
-/

namespace SupervisedWorker

/-- What starting a scripted service leads to. -/
inductive StarterResult
  /-- Starts and leaves something to close: what the hook does, and how it ends. -/
  | closing (acts : List HookAct) (ending : HookEnding)
  /-- Starts and leaves nothing to close. -/
  | started
  | fails (cause : Failure)
deriving DecidableEq, Repr, Inhabited

/-- A scripted starter. -/
structure StarterScript where
  /-- Tells starters of one name apart. -/
  tag : String
  result : StarterResult
deriving DecidableEq, Repr, Inhabited

namespace StarterScript

/-- A process and the notes of the starters that were called, in order. -/
abbrev Booting := Worker × List String

/-- Calls a scripted starter. -/
def start (starter : StarterScript) (name : String) (b : Booting) :
    Except Failure (Option HookScript) × Booting :=
  let b := (b.1, b.2 ++ [name ++ ":" ++ starter.tag])
  match starter.result with
  | .closing acts ending => (.ok (some ⟨name, acts, ending⟩), b)
  | .started => (.ok none, b)
  | .fails cause => (.error cause, b)

/-- Scripted services in a process. -/
def boot : Catalog.Boot HookScript StarterScript Booting where
  start := start
  attach hook _ script b := (b.1.attach hook script, b.2)
  write e b := (b.1.write e, b.2)

end StarterScript

end SupervisedWorker
