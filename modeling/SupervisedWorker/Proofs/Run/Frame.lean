import SupervisedWorker.Run.Moves

/-!
# What a move does to hooks

Of all that may happen during a run, little concerns the hooks: the boot attaches the hooks of
services, others register and withdraw hooks, the main task drains the registry and sweeps, the
threads of the sweep start on its hooks, and a hook that was left alone answers. Everything else
leaves the ledger of the run as it is.

Results:
1. `Monitor.step_keeps`: a step of the monitor keeps what its surroundings keep.
2. `mainStep_cases`: the main task starts the services, drains, sweeps, or stays in its phase.
3. `move_effect`: the same about every move.
-/

namespace SupervisedWorker

/-! ## Ledgers -/

/-- What a worker knows of hooks: which wait, which were called, and their numbers and
identities. -/
def Worker.ledger (w : Worker) : Registry HookScript × List String × List Nat × Nat :=
  (w.registry, w.calls, w.numbered, w.nextId)

theorem Worker.ledger_inj {w w' : Worker} (h : w'.ledger = w.ledger) :
    w'.registry = w.registry ∧ w'.calls = w.calls ∧ w'.numbered = w.numbered ∧
      w'.nextId = w.nextId := by
  simpa [ledger] using h

@[simp] theorem Worker.ledger_write (e : JournalEntry) (w : Worker) :
    (w.write e).ledger = w.ledger := rfl

theorem Worker.ledger_printBoth (line : String) (w : Worker) :
    (w.printBoth line).2.ledger = w.ledger := by
  unfold Worker.printBoth
  split <;> rfl

namespace Run

variable {σ : Type} {p : Plan σ} {s s' : State σ}

/-- Whether the run is in its sweep. -/
def Stage.isSweeping : Stage → Bool
  | .sweeping .. => true
  | _ => false

theorem Stage.isSweeping_iff {stage : Stage} :
    stage.isSweeping = true ↔ ∃ trigger progress, stage = .sweeping trigger progress := by
  cases stage <;> simp [isSweeping]

namespace State

/-- What a run knows of hooks: the ledger of its worker, and its sweep when that is over. -/
def ledger (s : State σ) :
    (Registry HookScript × List String × List Nat × Nat) × Option (Sweep.Progress HookScript) :=
  (s.worker.ledger, s.left)

theorem ledger_inj (h : s'.ledger = s.ledger) :
    s'.worker.ledger = s.worker.ledger ∧ s'.left = s.left := Prod.mk.inj h

@[simp] theorem ledger_goTo (s : State σ) (stage : Stage) : (s.goTo stage).ledger = s.ledger := rfl

@[simp] theorem stage_goTo (s : State σ) (stage : Stage) : (s.goTo stage).stage = stage := rfl

@[simp] theorem ledger_write (e : JournalEntry) (s : State σ) : (s.write e).ledger = s.ledger := rfl

theorem writes_keep (entries : Journal) (s : State σ) :
    (entries.foldl (fun s e => s.write e) s).ledger = s.ledger ∧
      (entries.foldl (fun s e => s.write e) s).stage = s.stage := by
  induction entries generalizing s with
  | nil => exact ⟨rfl, rfl⟩
  | cons e entries ih => exact ih (s.write e)

@[simp] theorem ledger_record (reason : String) (s : State σ) :
    (s.record reason).ledger = s.ledger := (writes_keep _ _).1

@[simp] theorem stage_record (reason : String) (s : State σ) :
    (s.record reason).stage = s.stage := (writes_keep _ _).2

@[simp] theorem ledger_settleLine (written : Except StreamError Unit) (s : State σ) :
    (s.settleLine written).ledger = s.ledger := by
  unfold State.settleLine
  dsimp only
  split <;> rfl

@[simp] theorem ledger_say (line : String) (s : State σ) : (s.say line).ledger = s.ledger :=
  ledger_settleLine _ _

/-! The sweep is kept where the run has it. -/

@[simp] theorem worker_keepSweep (progress : Sweep.Progress HookScript) (s : State σ) :
    (s.keepSweep progress).worker = s.worker := by
  unfold keepSweep
  split <;> rfl

@[simp] theorem sweep?_keepSweep (progress : Sweep.Progress HookScript) (s : State σ) :
    (s.keepSweep progress).sweep? = some progress := by
  unfold keepSweep
  split
  · rfl
  · rename_i hstage
    unfold sweep?
    split
    · rename_i heq
      exact absurd heq (hstage _ _)
    · rfl

theorem keepSweep_of_sweeping {trigger : StopTrigger} {progress : Sweep.Progress HookScript}
    (h : s.stage = .sweeping trigger progress) (progress' : Sweep.Progress HookScript) :
    s.keepSweep progress' = s.goTo (.sweeping trigger progress') := by
  rw [keepSweep, h]

/-- Once the sweep is over, the run keeps it beside its stage. -/
theorem keepSweep_of_left (h : s.stage.isSweeping = false) (progress : Sweep.Progress HookScript) :
    s.keepSweep progress = { s with left := some progress } := by
  unfold keepSweep
  split
  · rename_i hstage
    rw [hstage] at h
    cases h
  · rfl

theorem sweep?_of_sweeping {trigger : StopTrigger} {progress : Sweep.Progress HookScript}
    (h : s.stage = .sweeping trigger progress) : s.sweep? = some progress := by
  rw [sweep?, h]

theorem sweep?_of_left (h : s.stage.isSweeping = false) : s.sweep? = s.left := by
  unfold sweep?
  split
  · rename_i hstage
    rw [hstage] at h
    cases h
  · rfl

/-- A run has its sweep in its stage, or keeps it when it is over. -/
theorem sweep?_cases {progress : Sweep.Progress HookScript} (h : s.sweep? = some progress) :
    (∃ trigger, s.stage = .sweeping trigger progress) ∨
      s.stage.isSweeping = false ∧ s.left = some progress := by
  cases hs : s.stage.isSweeping with
  | false =>
    rw [sweep?_of_left hs] at h
    exact .inr ⟨rfl, h⟩
  | true =>
    obtain ⟨trigger, q, hstage⟩ := Stage.isSweeping_iff.mp hs
    rw [sweep?_of_sweeping hstage] at h
    cases h
    exact .inl ⟨trigger, hstage⟩

end State

end Run

/-! ## 1. The monitor and the watch -/

/-- A step of the monitor keeps what its surroundings keep. -/
theorem Monitor.step_keeps {σ β : Type} (m : Monitor) (around : Monitor.Surroundings σ) (f : σ → β)
    (hsample : ∀ s, f (around.sample s).2 = f s)
    (hkeep : ∀ tick, around.housekeeping = some tick → ∀ s, f (tick s) = f s)
    (hask : ∀ ask, around.agent = some ask → ∀ s, f (ask s).2 = f s)
    (hround : ∀ s, f (around.roundFinished s) = f s)
    (hwrite : ∀ e s, f (around.write e s) = f s) (phase : Monitor.Phase) (s : σ) :
    f (m.step around phase s).2 = f s := by
  cases phase with
  | starting => exact hsample s
  | asleep last =>
    unfold Monitor.step Monitor.sampleRound
    dsimp only
    split
    · rfl
    · split
      · exact (hwrite _ _).trans (hsample s)
      · exact hsample s
  | sampled last =>
    unfold Monitor.step
    cases htick : around.housekeeping with
    | none => rfl
    | some tick => exact hkeep tick htick s
  | kept last =>
    unfold Monitor.step
    cases hagent : around.agent with
    | none => rfl
    | some ask =>
      have h := hask ask hagent s
      dsimp only
      split <;> rename_i heq <;> rw [heq] at h <;> exact h
  | checked last => exact hround s
  | ended exit => rfl

/-- A look for the marker keeps what its surroundings keep. -/
theorem StopWatch.seesMarker_keeps {σ β : Type} (w : StopWatch) (files : FileSystem σ)
    {write : JournalEntry → σ → σ} (f : σ → β)
    (hprobe : ∀ path s, f (files.probe path s).2 = f s) (hwrite : ∀ e s, f (write e s) = f s)
    (s : σ) : f (w.seesMarker files write s).2 = f s := by
  have h := hprobe w.marker s
  unfold StopWatch.seesMarker
  rcases heq : files.probe w.marker s with ⟨e | _, s₁⟩ <;> rw [heq] at h
  · dsimp only
    split
    · exact h
    · exact (hwrite _ _).trans h
  · exact h

/-- An attempt at removing the marker keeps what its surroundings keep. -/
theorem StopWatch.removeOnce_keeps {σ β : Type} (w : StopWatch) (files : FileSystem σ)
    {write : JournalEntry → σ → σ} (f : σ → β)
    (hremove : ∀ path s, f (files.remove path s).2 = f s) (hwrite : ∀ e s, f (write e s) = f s)
    (attempt : Nat) (s : σ) : f (w.removeOnce files write attempt s).2 = f s := by
  have h := hremove w.marker s
  unfold StopWatch.removeOnce
  rcases heq : files.remove w.marker s with ⟨e | _, s₁⟩ <;> rw [heq] at h
  · dsimp only
    split
    · exact h
    · exact (hwrite _ _).trans h
  · exact h

namespace Run

variable {σ : Type} {p : Plan σ} {s s' : State σ}

theorem keepHouse_keeps (chore : Chore σ) (s : State σ) :
    (keepHouse chore s).ledger = s.ledger ∧ (keepHouse chore s).stage = s.stage :=
  State.writes_keep _ _

/-- The monitor leaves hooks and the main task alone. -/
theorem guardianStep_keeps (h : guardianStep p s = some s') :
    s'.ledger = s.ledger ∧ s'.stage = s.stage := by
  unfold guardianStep at h
  cases hg : s.guardian with
  | absent | done =>
    rw [hg] at h
    cases h
  | watching phase =>
    let kept (s : State σ) := (s.ledger, s.stage)
    have hstep : kept (p.monitor.step (monitorSurroundings p) phase s).2 = kept s := by
      refine p.monitor.step_keeps (monitorSurroundings p) kept (fun _ => rfl) ?_ ?_ (fun _ => rfl)
        (fun _ _ => rfl) phase s
      · intro tick htick s
        obtain ⟨chore, _, rfl⟩ := Option.map_eq_some_iff.mp htick
        exact Prod.ext (keepHouse_keeps chore s).1 (keepHouse_keeps chore s).2
      · intro ask hask s
        obtain ⟨i, _, rfl⟩ := Option.map_eq_some_iff.mp hask
        rfl
    rw [hg] at h
    cases h
    -- The stage is part of what is kept, since the monitor acts on the run as a whole.
    exact Prod.mk.inj hstep
  | muting | warning | raising =>
    rw [hg] at h
    cases h
    exact ⟨rfl, rfl⟩
  | recording =>
    rw [hg] at h
    cases h
    exact ⟨State.ledger_record parentLost s, State.stage_record parentLost s⟩

/-! ## 2. The main task -/

/-- Where a run stands with its hooks. -/
inductive Phase
  /-- The services are not started. -/
  | early
  /-- The services are started, and the registry is open. -/
  | live
  /-- A service could not be started, and the registry is open. -/
  | failed (failure : StartFailure)
  | sweeping (trigger : StopTrigger) (progress : Sweep.Progress HookScript)
  | swept (report : Report)
deriving DecidableEq, Repr

/-- The phase of a stage. -/
def Stage.phase : Stage → Phase
  | .opening | .booting => .early
  | .sweeping trigger progress => .sweeping trigger progress
  | .resuming report | .reporting _ report | .signing report | .leaving report
  | .finished (.stopped _ report) => .swept report
  | .finished (.bootFailed failure) => .failed failure
  | _ => .live

/-- Whether the registry is open in a phase. -/
def Phase.isOpen : Phase → Bool
  | .early | .live | .failed _ => true
  | .sweeping .. | .swept _ => false

theorem Stage.eq_of_phase_sweeping {stage : Stage} {trigger : StopTrigger}
    {progress : Sweep.Progress HookScript} (h : stage.phase = .sweeping trigger progress) :
    stage = .sweeping trigger progress := by
  unfold Stage.phase at h
  split at h <;> cases h
  rfl

/-- There is no sweep under way as long as the registry is open. -/
theorem Stage.isSweeping_of_isOpen {stage : Stage} (h : stage.phase.isOpen = true) :
    stage.isSweeping = false := by
  cases stage <;> first | rfl | cases h

theorem Stage.isSweeping_of_swept {stage : Stage} {report : Report}
    (h : stage.phase = .swept report) : stage.isSweeping = false := by
  cases stage <;> first | rfl | cases h

theorem look_keeps (w : StopWatch) (last : Bool) (s : State σ) :
    (look p w last s).ledger = s.ledger ∧
      (look p w last s).stage.phase = .live := by
  have hsees := w.seesMarker_keeps
    (p.files.within State.outside fun s outside => { s with outside })
    (fun s : State σ => s.ledger) (fun _ _ => rfl) State.ledger_write s
  unfold look
  dsimp only
  split <;> rename_i heq <;> rw [heq] at hsees
  · exact ⟨hsees, rfl⟩
  · refine ⟨hsees, ?_⟩
    cases last <;> rfl

theorem remove_keeps (w : StopWatch) (last : Bool) (left attempt : Nat) (s : State σ) :
    (remove p w last left attempt s).ledger = s.ledger ∧
      (remove p w last left attempt s).stage.phase = .live := by
  have hafter : (afterMarker last).phase = .live := by cases last <;> rfl
  unfold remove
  cases left with
  | zero => exact ⟨rfl, hafter⟩
  | succ left =>
    have hremoved := w.removeOnce_keeps
      (p.files.within State.outside fun s outside => { s with outside })
      (fun s : State σ => s.ledger) (fun _ _ => rfl) State.ledger_write attempt s
    dsimp only
    split <;> rename_i heq <;> rw [heq] at hremoved
    · exact ⟨hremoved, hafter⟩
    · exact ⟨hremoved, rfl⟩

theorem boot_phase (p : Plan σ) (s : State σ) :
    (boot p s).stage.phase = .live ∨ ∃ failure, (boot p s).stage.phase = .failed failure := by
  unfold boot
  split
  · exact .inr ⟨_, rfl⟩
  · exact .inl rfl

theorem boot_left (p : Plan σ) (s : State σ) : (boot p s).left = s.left := by
  unfold boot
  split <;> rfl

/-- The main task starts the services, drains the registry, sweeps, or leaves hooks alone and stays
in its phase. -/
theorem mainStep_cases (h : mainStep p s = some s') :
    (s.stage = .booting ∧ s' = boot p s) ∨
    (∃ trigger, s.stage = .draining trigger ∧ s' = drain p trigger s) ∨
    (∃ trigger progress, s.stage = .sweeping trigger progress ∧
      s' = sweep trigger progress s) ∨
    ((s.stage ≠ .booting ∧ s.stage.isSweeping = false) ∧
      s'.ledger = s.ledger ∧ s'.stage.phase = s.stage.phase) := by
  unfold mainStep at h
  cases hs : s.stage with
  | booting =>
    rw [hs] at h
    cases h
    exact .inl ⟨rfl, rfl⟩
  | draining trigger =>
    rw [hs] at h
    cases h
    exact .inr (.inl ⟨trigger, rfl, rfl⟩)
  | sweeping trigger progress =>
    rw [hs] at h
    cases h
    exact .inr (.inr (.inl ⟨trigger, progress, rfl, rfl⟩))
  | opening =>
    rw [hs] at h
    cases h
    refine .inr (.inr (.inr ⟨⟨nofun, rfl⟩, ?_, rfl⟩))
    split
    · exact State.ledger_say _ s
    · rfl
  | watching =>
    rw [hs] at h
    dsimp only at h
    split at h
    · cases h
      exact .inr (.inr (.inr ⟨⟨nofun, rfl⟩, rfl, rfl⟩))
    · obtain ⟨w, _, rfl⟩ := Option.map_eq_some_iff.mp h
      exact .inr (.inr (.inr ⟨⟨nofun, rfl⟩, rfl, rfl⟩))
  | polling last =>
    rw [hs] at h
    obtain ⟨w, _, rfl⟩ := Option.map_eq_some_iff.mp h
    exact .inr (.inr (.inr ⟨⟨nofun, rfl⟩, look_keeps w last s⟩))
  | removing last left attempt =>
    rw [hs] at h
    obtain ⟨w, _, rfl⟩ := Option.map_eq_some_iff.mp h
    exact .inr (.inr (.inr ⟨⟨nofun, rfl⟩, remove_keeps w last left attempt s⟩))
  | dozing =>
    rw [hs] at h
    cases h
    refine .inr (.inr (.inr ⟨⟨nofun, rfl⟩, rfl, ?_⟩))
    rw [State.stage_goTo]
    split <;> rfl
  | released trigger =>
    rw [hs] at h
    cases h
    -- Wherever the end of the watch leads, an orphaned run included, the registry is open.
    refine .inr (.inr (.inr ⟨⟨nofun, rfl⟩, rfl, ?_⟩))
    rw [State.stage_goTo]
    cases trigger with
    | stopCommand => rfl
    | interrupted =>
      unfold afterWatch
      dsimp only
      split
      · rfl
      · split <;> rfl
  | joining trigger =>
    rw [hs] at h
    dsimp only at h
    split at h
    · cases h
      refine .inr (.inr (.inr ⟨⟨nofun, rfl⟩, rfl, ?_⟩))
      cases trigger <;> rfl
    · cases h
  | raising trigger | lingering | quieting | resuming report | leaving report =>
    rw [hs] at h
    cases h
    exact .inr (.inr (.inr ⟨⟨nofun, rfl⟩, rfl, rfl⟩))
  | stopping trigger =>
    rw [hs] at h
    cases h
    exact .inr (.inr (.inr ⟨⟨nofun, rfl⟩, State.ledger_record stopping s, rfl⟩))
  | signing report =>
    rw [hs] at h
    cases h
    exact .inr (.inr (.inr ⟨⟨nofun, rfl⟩, State.ledger_say _ s, rfl⟩))
  | reporting trigger report =>
    rw [hs] at h
    cases h
    refine .inr (.inr (.inr ⟨⟨nofun, rfl⟩, State.ledger_say _ s, ?_⟩))
    cases trigger <;> rfl
  | finished ending =>
    rw [hs] at h
    cases h

/-! ## 3. Moves -/

/-- Whether somebody else than the run registers or withdraws a hook. -/
def Move.isForeign : Move σ → Bool
  | .register .. | .deregister _ => true
  | _ => false

/-- Whether a thread of the sweep starts on a hook. -/
def Move.isBegin : Move σ → Bool
  | .begin .. => true
  | _ => false

/-- What a move does to hooks. -/
inductive Effect (p : Plan σ) (s : State σ) : Move σ → State σ → Prop
  /-- It leaves hooks alone. -/
  | quiet {m : Move σ} {s' : State σ} :
      m.isForeign = false ∧ m.isBegin = false →
      (m = .main → s.stage ≠ .booting ∧ s.stage.isSweeping = false) →
      s'.ledger = s.ledger → s'.stage.phase = s.stage.phase → Effect p s m s'
  | boot : s.stage = .booting → Effect p s .main (boot p s)
  | drain {trigger : StopTrigger} :
      s.stage = .draining trigger → Effect p s .main (drain p trigger s)
  | sweep {trigger : StopTrigger} {progress : Sweep.Progress HookScript} :
      s.stage = .sweeping trigger progress → Effect p s .main (sweep trigger progress s)
  | register (name : String) (script : HookScript) :
      Effect p s (.register name script)
        { s with worker := (s.worker.register name script).2 }
  | deregister (number : Nat) :
      Effect p s (.deregister number) { s with worker := (s.worker.deregister number).2 }
  | begin {progress progress' : Sweep.Progress HookScript} {worker : Worker} {hook : Nat}
      {delay : Duration} :
      s.sweep? = some progress →
      progress.begin (call p) hook delay s.worker = some (progress', worker) →
      Effect p s (.begin hook delay) ({ s with worker }.keepSweep progress')
  | deliver {progress progress' : Sweep.Progress HookScript} {hook : Nat} {outcome : Outcome} :
      s.sweep? = some progress → progress.deliver hook outcome = some progress' →
      Effect p s (.deliver hook outcome) (s.keepSweep progress')

/-- Every move has one of these effects. -/
theorem move_effect {m : Move σ} (h : s.move p m = some s') : Effect p s m s' := by
  cases m with
  | main =>
    rcases mainStep_cases h with ⟨hs, rfl⟩ | ⟨trigger, hs, rfl⟩ | ⟨trigger, progress, hs, rfl⟩ |
      ⟨hs, hledger, hphase⟩
    · exact .boot hs
    · exact .drain hs
    · exact .sweep hs
    · exact .quiet ⟨rfl, rfl⟩ (fun _ => hs) hledger hphase
  | guardian =>
    obtain ⟨hledger, hstage⟩ := guardianStep_keeps h
    exact .quiet ⟨rfl, rfl⟩ nofun hledger (congrArg Stage.phase hstage)
  | giveUp =>
    change s.giveUp = some s' at h
    unfold State.giveUp at h
    cases hs : s.stage with
    | joining trigger =>
      rw [hs] at h
      cases h
      refine .quiet ⟨rfl, rfl⟩ nofun (by simp) ?_
      rw [hs]
      cases trigger <;> rfl
    | _ =>
      rw [hs] at h
      cases h
  | record reason =>
    cases h
    exact .quiet ⟨rfl, rfl⟩ nofun (by simp) (by simp)
  | raise =>
    change (if s.interrupt.reason.isSome then some s.raise else none) = some s' at h
    split at h
    · cases h
      exact .quiet ⟨rfl, rfl⟩ nofun rfl rfl
    · cases h
  | outside change =>
    cases h
    exact .quiet ⟨rfl, rfl⟩ nofun rfl rfl
  | register name script =>
    cases h
    exact .register name script
  | deregister number =>
    cases h
    exact .deregister number
  | begin hook delay =>
    obtain ⟨progress, hsweep, hbegin⟩ := Option.bind_eq_some_iff.mp h
    obtain ⟨⟨progress', worker⟩, hb, rfl⟩ := Option.map_eq_some_iff.mp hbegin
    exact .begin hsweep hb
  | straggle line =>
    rw [State.move] at h
    split at h
    · cases h
      exact .quiet ⟨rfl, rfl⟩ nofun (congrArg (·, s.left) (Worker.ledger_printBoth line s.worker)) rfl
    · cases h
  | deliver hook outcome =>
    obtain ⟨progress, hsweep, hdeliver⟩ := Option.bind_eq_some_iff.mp h
    obtain ⟨progress', hd, rfl⟩ := Option.map_eq_some_iff.mp hdeliver
    exact .deliver hsweep hd

/-- The sweep of a run is told by its phase and by what it has kept. -/
theorem State.sweep?_eq (hphase : s'.stage.phase = s.stage.phase) (hleft : s'.left = s.left) :
    s'.sweep? = s.sweep? := by
  have hstage : ∀ {t t' : State σ}, t'.stage.phase = t.stage.phase → t.stage.isSweeping = true →
      t'.sweep? = t.sweep? := by
    intro t t' heq ht
    obtain ⟨trigger, progress, hs⟩ := Stage.isSweeping_iff.mp ht
    rw [hs] at heq
    rw [State.sweep?_of_sweeping hs, State.sweep?_of_sweeping (Stage.eq_of_phase_sweeping heq)]
  cases hs : s.stage.isSweeping with
  | true => exact hstage hphase hs
  | false =>
    cases hs' : s'.stage.isSweeping with
    | true => exact (hstage hphase.symm hs').symm
    | false => rw [State.sweep?_of_left hs, State.sweep?_of_left hs', hleft]

/-- A sweep that goes on leaves the phase as it is, but for the sweep in it. -/
theorem State.phase_keepSweep (progress : Sweep.Progress HookScript) (s : State σ) :
    (s.keepSweep progress).stage.phase = s.stage.phase ∨
      ∃ trigger, (s.keepSweep progress).stage.phase = .sweeping trigger progress := by
  unfold State.keepSweep
  split
  · exact .inr ⟨_, rfl⟩
  · exact .inl rfl

/-- The services are started once. -/
theorem Effect.started {m : Move σ} (h : Effect p s m s') (hs : s.stage.phase ≠ .early) :
    s'.stage.phase ≠ .early := by
  cases h with
  | quiet _ _ _ hsame => rwa [hsame]
  | boot =>
    rcases boot_phase p s with hlive | ⟨failure, hfailed⟩
    · rw [hlive]
      exact nofun
    · rw [hfailed]
      exact nofun
  | sweep =>
    unfold Run.sweep
    split
    · rename_i trigger progress _ _
      cases trigger <;> exact nofun
    · exact nofun
  | register | deregister => exact hs
  | drain => exact nofun
  | begin hsweep =>
    rename_i progress worker _ _ _
    rcases State.phase_keepSweep progress { s with worker } with hsame | ⟨trigger, hsweeping⟩
    · rwa [hsame]
    · rw [hsweeping]
      exact nofun
  | deliver hsweep =>
    rename_i progress _ _ _
    rcases State.phase_keepSweep progress s with hsame | ⟨trigger, hsweeping⟩
    · rwa [hsame]
    · rw [hsweeping]
      exact nofun

end Run

end SupervisedWorker
