import SupervisedWorker.Interrupt

/-!
# Scripts of interrupts, handles and tokens

Several interrupts may be in use, and several handles may belong to one of them. A script clones
handles, makes new interrupts, hands out tokens, triggers and cancels.
-/

namespace SupervisedWorker

namespace Interrupt

/-- One step with handles and tokens, each named by its number. -/
inductive Step
  /-- Another handle of the same interrupt. -/
  | clone (handle : Nat)
  /-- A handle of a new interrupt. -/
  | create
  | subscribe (handle : Nat)
  | trigger (handle : Nat) (reason : String)
  | cancel (token : Nat)
  /-- Waits until the interrupt is raised, for a while. -/
  | wait (handle : Nat)
deriving DecidableEq, Repr

/-- Why a step cannot be done. -/
inductive StepError
  | noSuchHandle
  | noSuchToken
deriving DecidableEq, Repr

/-- All interrupts, the interrupt of every handle, and the interrupt and number of every token. -/
structure Board where
  interrupts : List Interrupt
  handles : List Nat
  tokens : List (Nat × Nat)
  journal : Journal
deriving DecidableEq, Repr

namespace Board

/-- One interrupt with one handle. -/
def start : Board := ⟨[fresh], [0], [], []⟩

/-- The interrupt at a place of the board. -/
def interrupt (b : Board) (place : Nat) : Interrupt := b.interrupts.getD place fresh

/-- For every handle, whether its interrupt is raised, and the reason: what its holder can ask for
after each step. -/
def handleStates (b : Board) : List (Bool × Option String) :=
  b.handles.map fun place => ((b.interrupt place).raised, (b.interrupt place).reason)

/-- For every token, whether it is cancelled: what its holder can ask for after each step. -/
def tokenStates (b : Board) : List Bool :=
  b.tokens.map fun (place, token) => (b.interrupt place).isCancelled token

/-- The place that a handle stands for. -/
def place (b : Board) (handle : Nat) : Except StepError Nat :=
  match b.handles[handle]? with
  | some place => .ok place
  | none => .error .noSuchHandle

/-- Performs one step; waiting answers whether the interrupt is raised. -/
def step (b : Board) : Step → Except StepError (Option Bool × Board)
  | .clone handle => do
    let place ← b.place handle
    return (none, { b with handles := b.handles ++ [place] })
  | .create =>
    .ok (none, { b with
      interrupts := b.interrupts ++ [fresh]
      handles := b.handles ++ [b.interrupts.length] })
  | .subscribe handle => do
    let place ← b.place handle
    let (token, i) := (b.interrupt place).subscribe
    return (none, { b with
      interrupts := b.interrupts.set place i
      tokens := b.tokens ++ [(place, token)] })
  | .trigger handle reason => do
    let place ← b.place handle
    let i := b.interrupt place
    return (none, { b with
      interrupts := b.interrupts.set place (i.trigger reason)
      journal := b.journal ++ i.triggerEntries reason })
  | .cancel token =>
    match b.tokens[token]? with
    | none => .error .noSuchToken
    | some (place, number) =>
      .ok (none, { b with
        interrupts := b.interrupts.set place ((b.interrupt place).cancelToken number) })
  | .wait handle => do
    let place ← b.place handle
    return (some (b.interrupt place).raised, b)

/-- Performs a script; every answer comes with the board it leaves. -/
def perform (b : Board) : List Step → Except StepError (List (Option Bool × Board))
  | [] => .ok []
  | step :: rest => do
    let (woke, b) ← b.step step
    return (woke, b) :: (← b.perform rest)

end Board

end Interrupt

end SupervisedWorker
