import SupervisedWorker.Proofs.Hook.Printing
import SupervisedWorker.Proofs.Run.Course
import SupervisedWorker.Proofs.Run.History

/-!
# What a run shows

A run prints lines for its agent, its hooks print, and the gate lets all of it through or nothing.
Two parts of the run move the gate, the main task around a sweep and the monitor when the agent is
dead; nobody else touches it.

Results:
1. `sealed_run`: from the drain on the registry is sealed, so hooks print nothing but their own
   lines.
2. `move_console`: every move prints its lines, or moves the gate and prints nothing.
3. `received_eq`: the streams have received what was printed while the gate was open.
-/

namespace SupervisedWorker

namespace Worker

/-- What a suppressed gate keeps: itself, and what was shown so far. -/
def screen (w : Worker) : Gate × Journal := (w.gate, if w.gate.suppressed then w.shown else [])

@[simp] theorem screen_write (e : JournalEntry) (w : Worker) : (w.write e).screen = w.screen := by
  unfold screen write
  dsimp only
  split <;> rfl

theorem Prints.of_screen {w w' : Worker} (h : w'.screen = w.screen) : Prints w w' [] [] := by
  obtain ⟨hgate, hshown⟩ := Prod.mk.inj h
  refine .of_gate hgate fun hs => ?_
  rwa [hgate, if_pos hs, if_pos hs] at hshown

end Worker

namespace Run

open Worker

variable {σ : Type} {p : Plan σ} {s s' s₀ : State σ}

/-! ## 1. The sealed registry -/

/-- An orderly run that has sealed its registry when this is closed. -/
structure State.Sealing (s : State σ) : Prop extends s.Orderly where
  isSealed : s.stage.phase.isOpen = false → s.worker.IsSealed

theorem State.Sealing.of_sweep (h : s.Sealing) {progress : Sweep.Progress HookScript}
    (hsweep : s.sweep? = some progress) : s.worker.IsSealed :=
  h.isSealed (h.closed hsweep)

theorem State.Sealing.quiet (h : s.Sealing) (hledger : s'.ledger = s.ledger)
    (hphase : s'.stage.phase = s.stage.phase) : s'.Sealing := by
  refine ⟨h.toOrderly.quiet hledger hphase, fun hclosed => ?_⟩
  rw [hphase] at hclosed
  exact (Worker.ledger_inj (State.ledger_inj hledger).1).1.trans (h.isSealed hclosed)

/-- The drain seals the registry, and a sealed one takes no hook in. -/
theorem sealed_step {m : Move σ} (h : s.move p m = some s') (hs : s.Sealing) : s'.Sealing := by
  refine ⟨hs.toOrderly.move h, fun hclosed => ?_⟩
  cases move_effect h with
  | quiet _ _ hledger hphase => exact (hs.quiet hledger hphase).isSealed hclosed
  | boot =>
    rcases boot_phase p s with hphase | ⟨failure, hphase⟩ <;> rw [hphase] at hclosed <;>
      cases hclosed
  | drain => rfl
  | sweep hsweeping =>
    have hsealed := hs.of_sweep (State.sweep?_of_sweeping hsweeping)
    unfold Run.sweep
    split
    · exact hsealed
    · exact (Sweep.step_sameHooks ..).isSealed hsealed
  | register name script =>
    exact (register_sealed (hs.isSealed hclosed) name script).isSealed (hs.isSealed hclosed)
  | deregister number =>
    exact (deregister_sealed (hs.isSealed hclosed) number).isSealed (hs.isSealed hclosed)
  | begin hsweep hbegin =>
    rw [State.worker_keepSweep]
    exact Sweep.begin_sealed (hs.of_sweep hsweep) hbegin
  | deliver hsweep =>
    rw [State.worker_keepSweep]
    exact hs.of_sweep hsweep

theorem sealed_run {w : Worker} {o : σ} {ms : List (Move σ)}
    (h : (p.start w o).moves p ms = some s) : s.Sealing :=
  State.moves_induction (motive := fun _ s => s.Sealing)
    ⟨orderly_start p w o, fun hclosed => by cases hclosed⟩
    (fun _ _ _ _ _ hm hs => sealed_step hm hs) h

/-! ## 2. Lines and the gate -/

/-- The lines that a move prints to the output. -/
def State.toOut (p : Plan σ) (s : State σ) : Move σ → List String
  | .main =>
    match s.stage with
    | .opening => if p.role.isSupervised then [openingLine p.processId] else []
    | .reporting _ report => [closingLines p.clock report]
    | .signing _ => [p.settings.shutdown.completionToken]
    | _ => []
  | .begin hook _ => s.sweep?.elim [] fun progress => progress.linesOf hook
  | .straggle line => [line]
  | _ => []

/-- The lines that a move prints to the error output. -/
def State.toErr (s : State σ) : Move σ → List String
  | .begin hook _ => s.sweep?.elim [] fun progress => progress.linesOf hook
  | .straggle line => [line]
  | _ => []

/-- Where a move puts the gate, if it moves it. -/
def State.gating (s : State σ) : Move σ → Option Bool
  | .main =>
    match s.stage with
    | .quieting => some true
    | .resuming _ => some false
    | _ => none
  | .guardian =>
    match s.guardian with
    | .muting => some true
    | _ => none
  | _ => none

theorem flush_prints (w : Worker) : Prints w { w with gate := w.gate.flush.2 } [] [] := by
  refine ⟨Gate.suppressed_flush w.gate, fun hs => ⟨?_, rfl⟩, Gate.flush_takes⟩
  exact congrArg Prod.snd (Gate.flush_suppressed hs)

/-- What follows a line that was written prints nothing. -/
theorem settleLine_prints (written : Except StreamError Unit) (s : State σ) :
    Prints s.worker (s.settleLine written).worker [] [] := by
  unfold State.settleLine
  cases written with
  | error e => exact write_prints (State.lineEntry e) s.worker
  | ok =>
    have hflush := flush_prints s.worker
    dsimp only
    split
    · exact hflush
    · exact hflush.trans (write_prints _ _)

theorem writeLine_prints (line : String) (w : Worker) :
    Prints w { w with gate := (w.gate.writeLine .out line).2 } [line] [] := by
  refine ⟨Gate.pass_suppressed .., fun hs => ⟨?_, rfl⟩, fun ha => ?_⟩
  · exact congrArg Prod.snd (Gate.writeLine_suppressed hs .out line)
  · obtain ⟨g, hline, htakes⟩ := Gate.writeLine_takes ha .out line
    rw [hline]
    exact htakes

theorem say_prints (line : String) (s : State σ) :
    Prints s.worker (s.say line).worker [line] [] :=
  let written := s.worker.gate.writeLine .out line
  (writeLine_prints line s.worker).trans
    (settleLine_prints written.1 { s with worker := { s.worker with gate := written.2 } })

/-- The boot writes to the journal and attaches hooks, and prints nothing. -/
theorem bootFrom_prints (c : Catalog StarterScript) (names : List String) (started : Nat)
    (w : Worker) (notes : List String) :
    Prints w (c.bootFrom StarterScript.boot started names (w, notes)).2.1 [] [] := by
  induction names generalizing started w notes with
  | nil => exact .refl w
  | cons name names ih =>
    unfold Catalog.bootFrom
    cases c.find? name with
    | none => exact (write_prints (Catalog.skipEntry name) w).trans (ih started _ notes)
    | some starter =>
      obtain ⟨tag, result⟩ := starter
      cases result with
      | fails cause => exact .refl w
      | started => exact ih (started + 1) w _
      | closing acts ending =>
        have hattach : Prints w (w.attach (Catalog.hookName name) ⟨name, acts, ending⟩) [] [] :=
          .of_gate rfl fun _ => rfl
        exact hattach.trans (ih (started + 1) _ _)

theorem boot_prints (p : Plan σ) (s : State σ) : Prints s.worker (boot p s).worker [] [] := by
  have h := bootFrom_prints p.catalog p.settings.general.services 0 s.worker s.started
  unfold boot Catalog.boot
  split <;> rename_i heq <;> rw [heq] at h <;> exact h

theorem sweep_prints (trigger : StopTrigger) (progress : Sweep.Progress HookScript) (s : State σ) :
    Prints s.worker (sweep trigger progress s).worker [] [] := by
  unfold sweep
  split
  · exact .refl _
  · exact Sweep.step_prints ..

/-- The screen stays as it is where nothing is done but writing to the journal and working
outside. -/
theorem screen_write (e : JournalEntry) (s : State σ) :
    (s.write e).worker.screen = s.worker.screen := Worker.screen_write e s.worker

theorem screen_record (reason : String) (s : State σ) :
    (s.record reason).worker.screen = s.worker.screen :=
  State.foldl_write (f := fun s : State σ => s.worker.screen) screen_write _ _

/-- A step of the main task prints its lines, or moves the gate. -/
theorem mainStep_console (h : mainStep p s = some s') :
    match s.gating .main with
    | none => Prints s.worker s'.worker (s.toOut p .main) (s.toErr .main)
    | some b => s'.worker = { s.worker with gate := { s.worker.gate with suppressed := b } } := by
  unfold mainStep at h
  simp only [State.gating, State.toOut, State.toErr]
  cases hs : s.stage with
  | opening =>
    rw [hs] at h
    cases h
    dsimp only
    split
    · exact say_prints _ s
    · exact .refl _
  | booting =>
    rw [hs] at h
    cases h
    exact boot_prints p s
  | watching =>
    rw [hs] at h
    dsimp only at h
    split at h
    · cases h
      exact .refl _
    · obtain ⟨w, _, rfl⟩ := Option.map_eq_some_iff.mp h
      exact .refl _
  | polling last =>
    rw [hs] at h
    obtain ⟨w, _, rfl⟩ := Option.map_eq_some_iff.mp h
    exact .of_screen (look_frame (f := fun s : State σ => s.worker.screen) (fun _ _ => rfl)
      (fun _ _ => rfl) screen_write w last s)
  | removing last left attempt =>
    rw [hs] at h
    obtain ⟨w, _, rfl⟩ := Option.map_eq_some_iff.mp h
    exact .of_screen (remove_frame (f := fun s : State σ => s.worker.screen) (fun _ _ => rfl)
      (fun _ _ => rfl) screen_write w last left attempt s)
  | stopping trigger =>
    rw [hs] at h
    cases h
    exact .of_screen (screen_record stopping s)
  | joining trigger =>
    rw [hs] at h
    dsimp only at h
    split at h
    · cases h
      exact .refl _
    · cases h
  | draining trigger =>
    rw [hs] at h
    cases h
    exact .of_gate rfl fun _ => rfl
  | sweeping trigger progress =>
    rw [hs] at h
    cases h
    exact sweep_prints ..
  | reporting trigger report =>
    rw [hs] at h
    cases h
    exact say_prints _ s
  | signing report =>
    rw [hs] at h
    cases h
    exact say_prints _ s
  | quieting | resuming report =>
    rw [hs] at h
    cases h
    rfl
  | dozing | released trigger | lingering | raising trigger | leaving report =>
    rw [hs] at h
    cases h
    exact .refl _
  | finished ending =>
    rw [hs] at h
    cases h

theorem guardianStep_console (h : guardianStep p s = some s') :
    match s.gating .guardian with
    | none => Prints s.worker s'.worker [] []
    | some b => s'.worker = { s.worker with gate := { s.worker.gate with suppressed := b } } := by
  unfold guardianStep at h
  simp only [State.gating]
  cases hg : s.guardian with
  | absent | done =>
    rw [hg] at h
    cases h
  | watching phase =>
    rw [hg] at h
    cases h
    exact .of_screen (monitor_frame (f := fun s : State σ => s.worker.screen) (fun _ _ _ _ => rfl)
      screen_write phase s)
  | muting =>
    rw [hg] at h
    cases h
    rfl
  | warning =>
    rw [hg] at h
    cases h
    exact write_prints goneEntry s.worker
  | recording =>
    rw [hg] at h
    cases h
    exact .of_screen (screen_record parentLost s)
  | raising =>
    rw [hg] at h
    cases h
    exact .refl _

/-- Every move prints its lines, or moves the gate and prints nothing. -/
theorem move_console {m : Move σ} (h : s.move p m = some s') (hsealed : s.Sealing) :
    match s.gating m with
    | none => Prints s.worker s'.worker (s.toOut p m) (s.toErr m)
    | some b => s'.worker = { s.worker with gate := { s.worker.gate with suppressed := b } } := by
  cases m with
  | main => exact mainStep_console h
  | guardian => exact guardianStep_console h
  | giveUp =>
    obtain ⟨trigger, _, rfl⟩ := giveUp_passage h
    exact write_prints lateMonitorEntry s.worker
  | begin hook delay =>
    obtain ⟨progress, progress', worker, hsweep, hb, rfl⟩ := begin_keeps h
    simp only [State.gating, State.toOut, State.toErr, State.worker_keepSweep, hsweep,
      Option.elim_some]
    exact Sweep.begin_prints (hsealed.of_sweep hsweep) hb
  | deliver hook outcome =>
    obtain ⟨_, _, _, _, rfl⟩ := deliver_keeps h
    simp only [State.gating, State.toOut, State.toErr, State.worker_keepSweep]
    exact .refl _
  | record reason =>
    cases h
    exact .of_screen (screen_record reason s)
  | raise =>
    rw [State.move] at h
    split at h <;> cases h
    exact .refl _
  | straggle line =>
    rw [State.move] at h
    split at h <;> cases h
    exact (printBoth_prints line s.worker).1
  | outside change =>
    cases h
    exact .refl _
  | register name script =>
    cases h
    exact .of_gate rfl fun _ => rfl
  | deregister number =>
    cases h
    simp only [State.gating, State.toOut, State.toErr, Worker.deregister]
    split
    · exact .refl _
    · exact .of_gate rfl fun _ => rfl

/-! ## 3. Whole runs -/

/-- What a move that moves the gate prints is nothing. -/
theorem lines_gating {m : Move σ} {b : Bool} (h : s.gating m = some b) (p : Plan σ) :
    s.toOut p m = [] ∧ s.toErr m = [] := by
  cases m with
  | main =>
    simp only [State.gating] at h
    cases hs : s.stage with
    | quieting | resuming report => simp [State.toOut, State.toErr, hs]
    | _ =>
      rw [hs] at h
      cases h
  | guardian => exact ⟨rfl, rfl⟩
  | _ => cases h

/-- The gate stands where the last move put it that moved it. -/
theorem suppressed_move {m : Move σ} (h : s.move p m = some s') (hsealed : s.Sealing) :
    s'.worker.gate.suppressed = (s.gating m).getD s.worker.gate.suppressed := by
  have hconsole := move_console h hsealed
  cases hg : s.gating m with
  | none =>
    rw [hg] at hconsole
    exact hconsole.position
  | some b =>
    rw [hg] at hconsole
    rw [hconsole]
    rfl

/-- The lines of a move that the gate lets through. -/
def State.heardOut (p : Plan σ) (s : State σ) (m : Move σ) : List String :=
  if s.worker.gate.suppressed then [] else s.toOut p m

/-- The lines of a move for the error output that the gate lets through. -/
def State.heardErr (s : State σ) (m : Move σ) : List String :=
  if s.worker.gate.suppressed then [] else s.toErr m

/-- What streams have received that accept everything, after a move. -/
theorem received_move {m : Move σ} (h : s.move p m = some s') (hsealed : s.Sealing)
    (ha : s.worker.gate.Accepts) :
    s'.worker.gate.Accepts ∧
      s'.worker.gate.out.received =
        s.worker.gate.out.received ++ Gate.linesBytes (s.heardOut p m) ∧
      s'.worker.gate.err.received =
        s.worker.gate.err.received ++ Gate.linesBytes (s.heardErr m) := by
  have hconsole := move_console h hsealed
  cases hg : s.gating m with
  | none =>
    rw [hg] at hconsole
    obtain ⟨_, haccepts, hout, herr⟩ := hconsole.takes ha
    rw [hout, herr, Gate.passed_eq, Gate.passed_eq]
    exact ⟨haccepts, rfl, rfl⟩
  | some b =>
    rw [hg] at hconsole
    obtain ⟨hout, herr⟩ := lines_gating hg p
    rw [hconsole, State.heardOut, State.heardErr, hout, herr, ite_self, Gate.linesBytes_nil,
      List.append_nil, List.append_nil]
    exact ⟨⟨ha.out, ha.err⟩, rfl, rfl⟩

/-- Streams that accept everything have received what was printed while the gate was open. -/
theorem received_eq {w : Worker} (ha : w.gate.Accepts) {o : σ} {ms : List (Move σ)}
    (h : (p.start w o).moves p ms = some s) :
    s.worker.gate.Accepts ∧
      s.worker.gate.out.received = w.gate.out.received ++
        Gate.linesBytes (collect p (State.heardOut p) (p.start w o) ms) ∧
      s.worker.gate.err.received = w.gate.err.received ++
        Gate.linesBytes (collect p State.heardErr (p.start w o) ms) := by
  refine State.moves_induction (motive := fun ms s => s.worker.gate.Accepts ∧
    s.worker.gate.out.received = w.gate.out.received ++
      Gate.linesBytes (collect p (State.heardOut p) (p.start w o) ms) ∧
    s.worker.gate.err.received = w.gate.err.received ++
      Gate.linesBytes (collect p State.heardErr (p.start w o) ms)) ?_ ?_ h
  · exact ⟨ha, (List.append_nil _).symm, (List.append_nil _).symm⟩
  · rintro ms m s s' hs hm ⟨haccepts, hout, herr⟩
    obtain ⟨haccepts', hout', herr'⟩ := received_move hm (sealed_run hs) haccepts
    rw [collect_concat _ hs, collect_concat _ hs, Gate.linesBytes_append, Gate.linesBytes_append,
      ← List.append_assoc, ← List.append_assoc, ← hout, ← herr]
    exact ⟨haccepts', hout', herr'⟩

end Run

end SupervisedWorker
