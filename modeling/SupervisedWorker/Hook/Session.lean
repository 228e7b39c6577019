import SupervisedWorker.Hook.Script

/-!
# Sessions with a registry

A session registers and withdraws hooks, drains the registry and holds the hooks aside, sweeps, and
makes and uses guards. Guards that are still armed when the session ends are dropped.
-/

namespace SupervisedWorker

namespace Session

/-- One step of a session. -/
inductive Step
  | register (name : String) (script : HookScript)
  | deregister (number : Nat)
  /-- Drains the registry and holds the hooks aside. -/
  | drain
  /-- Calls the hooks that are held aside. -/
  | runHeld (limit : Duration)
  | shutdown
  | newGuard
  /-- Sets off a guard and asks for its report. -/
  | fireGuard (guard : Nat)
  | dropGuard (guard : Nat)
  | disarmGuard (guard : Nat)
  /-- Asks for the limit of the sweeps. -/
  | askLimit
deriving DecidableEq, Repr

/-- The answer to a step. -/
inductive Answer
  | silent
  | number (n : Nat)
  | removed (yes : Bool)
  | names (hooks : List String)
  | report (r : Report)
  | span (d : Duration)
deriving DecidableEq, Repr

/-- Why a step cannot be done. -/
inductive StepError
  /-- No hook has that number. -/
  | noSuchHook
  /-- There is no such guard, or it has been used. -/
  | noSuchGuard
deriving DecidableEq, Repr

/-- A process, the hooks held aside, its guards and the limit of its sweeps. -/
structure State where
  process : Worker
  held : List (Hook HookScript)
  guards : List ExitGuard
  limit : Duration
deriving DecidableEq, Repr

namespace State

/-- A session over a fresh process. -/
def start (limit : Duration) : State :=
  ⟨.fresh (.ofStreams .unlimited .unlimited), [], [], limit⟩

/-- Takes a guard that has not been used, which uses it up. -/
def spend (s : State) (guard : Nat) : Except StepError (ExitGuard × State) :=
  match s.guards[guard]? with
  | some .armed => .ok (.armed, { s with guards := s.guards.set guard .spent })
  | _ => .error .noSuchGuard

/-- Drops or fires a guard. -/
def goOff (guard : ExitGuard) (s : State) : Option Report × State :=
  let (report, process) := s.process.goOff (Worker.sweep s.limit) guard
  (report, { s with process })

/-- Performs one step. -/
def step (s : State) : Step → Except StepError (Answer × State)
  | .register name script =>
    let (number, process) := s.process.register name script
    .ok (.number number, { s with process })
  | .deregister number =>
    match s.process.deregister number with
    | (none, _) => .error .noSuchHook
    | (some removed, process) => .ok (.removed removed, { s with process })
  | .drain =>
    let (hooks, registry) := s.process.registry.drain
    let process := { s.process with registry }
    .ok (.names (hooks.map (·.name)), { s with process, held := hooks })
  | .runHeld limit =>
    let (report, process) := s.process.runHooks limit s.held
    .ok (.report report, { s with process, held := [] })
  | .shutdown =>
    let (report, process) := s.process.sweep s.limit
    .ok (.report report, { s with process })
  | .newGuard => .ok (.number s.guards.length, { s with guards := s.guards ++ [.armed] })
  | .fireGuard guard => do
    let (guard, s) ← s.spend guard
    let (report, s) := s.goOff guard
    return (match report with | some r => .report r | none => .silent, s)
  | .dropGuard guard => do
    let (guard, s) ← s.spend guard
    return (.silent, (s.goOff guard).2)
  | .disarmGuard guard => do
    let (guard, s) ← s.spend guard
    return (.silent, (s.goOff guard.disarm).2)
  | .askLimit => .ok (.span s.limit, s)

/-- Performs a script; every answer comes with the state it leaves. -/
def perform (s : State) : List Step → Except StepError (List (Answer × State) × State)
  | [] => .ok ([], s)
  | step :: rest => do
    let (answer, s) ← s.step step
    let (answers, last) ← s.perform rest
    return ((answer, s) :: answers, last)

/-- Ends the session: armed guards are dropped, the oldest first. -/
def finish (s : State) : State :=
  s.guards.foldl (fun s guard => (s.goOff guard).2) s

end State

end Session

end SupervisedWorker
