import SupervisedWorker.Proofs.Hook.Sweep
import SupervisedWorker.Proofs.Run.Frame
import SupervisedWorker.Proofs.Run.History

/-!
# The course of a run

Where a move leads the main task, where a step leads the monitor's task, and what a move does to
the interrupt. All that is said about the order of things in a run follows from these.

Results:
1. `interrupt_move`: only the two steps of a trigger touch the interrupt.
2. `move_passage`: the ways that lead from one stage of the main task to the next.
3. `guardian_cases`: the monitor's task goes its own way, from the boot to its end.
4. `State.Orderly.move`: a run has no sweep before its drain, and a sweep waits for one hook at most.
-/

namespace SupervisedWorker

namespace Run

variable {σ : Type} {p : Plan σ} {s s' : State σ}

/-! ## 1. Steps that keep a part of the state -/

section Keeping

variable {β : Type} {f : State σ → β}

theorem State.foldl_write (hwrite : ∀ e s, f (State.write e s) = f s) (entries : Journal)
    (s : State σ) : f (entries.foldl (fun s e => s.write e) s) = f s := by
  induction entries generalizing s with
  | nil => rfl
  | cons e entries ih => exact (ih (s.write e)).trans (hwrite e s)

theorem look_frame (hgo : ∀ s stage, f (State.goTo s stage) = f s)
    (houtside : ∀ s o, f { s with outside := o } = f s)
    (hwrite : ∀ e s, f (State.write e s) = f s)
    (w : StopWatch) (last : Bool) (s : State σ) : f (look p w last s) = f s := by
  have hsees := w.seesMarker_keeps
    (p.files.within State.outside fun s outside => { s with outside }) f
    (fun path s => houtside s (p.files.probe path s.outside).2) hwrite s
  unfold look
  dsimp only
  split <;> rename_i heq <;> rw [heq] at hsees <;> exact (hgo _ _).trans hsees

theorem remove_frame (hgo : ∀ s stage, f (State.goTo s stage) = f s)
    (houtside : ∀ s o, f { s with outside := o } = f s)
    (hwrite : ∀ e s, f (State.write e s) = f s)
    (w : StopWatch) (last : Bool) (left attempt : Nat) (s : State σ) :
    f (remove p w last left attempt s) = f s := by
  unfold remove
  cases left with
  | zero => exact (hgo _ _).trans (hwrite _ s)
  | succ left =>
    have hremoved := w.removeOnce_keeps
      (p.files.within State.outside fun s outside => { s with outside }) f
      (fun path s => houtside s (p.files.remove path s.outside).2) hwrite attempt s
    dsimp only
    split <;> rename_i heq <;> rw [heq] at hremoved <;> exact (hgo _ _).trans hremoved

theorem keepHouse_frame (houtside : ∀ s bounded slot o,
      f { s with bounded := bounded, slot := slot, outside := o } = f s)
    (hwrite : ∀ e s, f (State.write e s) = f s) (chore : Chore σ) (s : State σ) :
    f (keepHouse chore s) = f s :=
  (State.foldl_write hwrite _ _).trans (houtside s _ _ _)

/-- Until it finds the agent dead, the monitor touches nothing but the journal, its housekeeping
and what lies outside. -/
theorem monitor_frame (houtside : ∀ s bounded slot o,
      f { s with bounded := bounded, slot := slot, outside := o } = f s)
    (hwrite : ∀ e s, f (State.write e s) = f s) (phase : Monitor.Phase) (s : State σ) :
    f (p.monitor.step (monitorSurroundings p) phase s).2 = f s := by
  have hkeep : ∀ (s : State σ) o, f { s with outside := o } = f s :=
    fun s o => houtside s s.bounded s.slot o
  refine p.monitor.step_keeps (monitorSurroundings p) f (fun s => hkeep s _) ?_ ?_
    (fun s => hkeep s _) hwrite phase s
  · intro tick htick s
    obtain ⟨chore, _, rfl⟩ := Option.map_eq_some_iff.mp htick
    exact keepHouse_frame houtside hwrite chore s
  · intro ask hask s
    obtain ⟨i, _, rfl⟩ := Option.map_eq_some_iff.mp hask
    exact hkeep s _

end Keeping

@[simp] theorem State.interrupt_record (reason : String) (s : State σ) :
    (s.record reason).interrupt = s.interrupt.recordReason reason :=
  State.foldl_write (f := State.interrupt) (fun _ _ => rfl) _ _

@[simp] theorem State.guardian_record (reason : String) (s : State σ) :
    (s.record reason).guardian = s.guardian :=
  State.foldl_write (f := State.guardian) (fun _ _ => rfl) _ _

@[simp] theorem State.interrupt_settleLine (written : Except StreamError Unit) (s : State σ) :
    (s.settleLine written).interrupt = s.interrupt := by
  unfold State.settleLine
  dsimp only
  split <;> rfl

@[simp] theorem State.interrupt_say (line : String) (s : State σ) :
    (s.say line).interrupt = s.interrupt := State.interrupt_settleLine _ _

@[simp] theorem State.interrupt_keepSweep (progress : Sweep.Progress HookScript) (s : State σ) :
    (s.keepSweep progress).interrupt = s.interrupt := by
  unfold State.keepSweep
  split <;> rfl

@[simp] theorem State.guardian_settleLine (written : Except StreamError Unit) (s : State σ) :
    (s.settleLine written).guardian = s.guardian := by
  unfold State.settleLine
  dsimp only
  split <;> rfl

@[simp] theorem State.guardian_say (line : String) (s : State σ) :
    (s.say line).guardian = s.guardian := State.guardian_settleLine _ _

@[simp] theorem State.guardian_keepSweep (progress : Sweep.Progress HookScript) (s : State σ) :
    (s.keepSweep progress).guardian = s.guardian := by
  unfold State.keepSweep
  split <;> rfl

/-! ## 2. The main task -/

theorem ending_stage {ending : Ending} (h : s.ending? = some ending) :
    s.stage = .finished ending := by
  unfold State.ending? at h
  split at h <;> cases h
  assumption

/-- Whether a look for the marker would find it now. -/
def sees (p : Plan σ) (w : StopWatch) (s : State σ) : Bool :=
  (p.files.probe w.marker s.outside).1.isOk

/-- Whether a move is a turn of the main task. -/
def Move.isTurn : Move σ → Bool
  | .main | .giveUp => true
  | _ => false

/-- The ways of the main task from one stage to the next. -/
inductive Passage (p : Plan σ) (s : State σ) : Move σ → State σ → Prop
  /-- Others leave the main task where it is. -/
  | elsewhere {m : Move σ} {s' : State σ} :
      m.isTurn = false → s'.stage = s.stage → Passage p s m s'
  | begun {trigger : StopTrigger} {progress progress' : Sweep.Progress HookScript} {hook : Nat}
      {delay : Duration} {worker : Worker} {s' : State σ} :
      s.stage = .sweeping trigger progress →
      progress.begin (call p) hook delay s.worker = some (progress', worker) →
      s'.stage = .sweeping trigger progress' → Passage p s (.begin hook delay) s'
  | answered {trigger : StopTrigger} {progress progress' : Sweep.Progress HookScript} {hook : Nat}
      {outcome : Outcome} {s' : State σ} :
      s.stage = .sweeping trigger progress → progress.deliver hook outcome = some progress' →
      s'.stage = .sweeping trigger progress' → Passage p s (.deliver hook outcome) s'
  | opened {s' : State σ} : s.stage = .opening → s'.stage = .booting → Passage p s .main s'
  | booted {s' : State σ} : s.stage = .booting → s'.guardian = .watching .starting →
      s'.stage = .watching → Passage p s .main s'
  | failed {failure : StartFailure} {s' : State σ} : s.stage = .booting →
      s'.guardian = s.guardian → s'.stage = .finished (.bootFailed failure) →
      Passage p s .main s'
  | interrupted {s' : State σ} : s.stage = .watching → s.interrupt.raised = true →
      s'.stage = .released .interrupted → Passage p s .main s'
  | roused {s' : State σ} : s.stage = .dozing → s.interrupt.raised = true →
      s'.stage = .released .interrupted → Passage p s .main s'
  | turned {w : StopWatch} {s' : State σ} : s.stage = .watching → s.interrupt.raised = false →
      p.watch = some w → s'.stage = .polling false → Passage p s .main s'
  | woken {s' : State σ} : s.stage = .dozing → s.interrupt.raised = false →
      s'.stage = .watching → Passage p s .main s'
  | found {w : StopWatch} {last : Bool} {s' : State σ} : s.stage = .polling last →
      p.watch = some w → sees p w s = true → s'.stage = .removing last w.attempts 1 →
      Passage p s .main s'
  | missed {w : StopWatch} {last : Bool} {s' : State σ} : s.stage = .polling last →
      p.watch = some w → sees p w s = false → s'.stage = afterNothing last →
      Passage p s .main s'
  | consumed {last : Bool} {left attempt : Nat} {s' : State σ} :
      s.stage = .removing last left attempt → s'.stage = afterMarker last → Passage p s .main s'
  | failedOnce {last : Bool} {left attempt : Nat} {s' : State σ} :
      s.stage = .removing last (left + 1) attempt →
      s'.stage = .removing last left (attempt + 1) → Passage p s .main s'
  | released {trigger : StopTrigger} {s' : State σ} : s.stage = .released trigger →
      s'.stage = afterWatch p trigger s.interrupt.reason → Passage p s .main s'
  | lingered {s' : State σ} : s.stage = .lingering → s'.stage = .polling true →
      Passage p s .main s'
  | recorded {trigger : StopTrigger} {s' : State σ} : s.stage = .stopping trigger →
      s'.stage = .raising trigger → Passage p s .main s'
  | raised {trigger : StopTrigger} {s' : State σ} : s.stage = .raising trigger →
      s'.stage = .joining trigger → Passage p s .main s'
  /-- The monitor is done, or is left to itself. -/
  | joined {trigger : StopTrigger} {m : Move σ} {s' : State σ} : m.isTurn = true →
      s.stage = .joining trigger → s'.stage = afterMonitor trigger → Passage p s m s'
  | quieted {s' : State σ} : s.stage = .quieting → s'.stage = .draining .stopCommand →
      Passage p s .main s'
  | drained {trigger : StopTrigger} {s' : State σ} : s.stage = .draining trigger →
      s'.stage = .sweeping trigger
        (.start (p.time s.outside) p.hookLimit s.worker.registry.hooks.reverse) →
      Passage p s .main s'
  | swept {trigger : StopTrigger} {progress : Sweep.Progress HookScript} {s' : State σ} :
      s.stage = .sweeping trigger progress → progress.isOver = true →
      s'.stage = afterSweep trigger progress.report → Passage p s .main s'
  | sweeping {trigger : StopTrigger} {progress : Sweep.Progress HookScript} {s' : State σ} :
      s.stage = .sweeping trigger progress → progress.isOver = false →
      s'.stage = .sweeping trigger (progress.step Worker.surroundings s.worker).1 →
      Passage p s .main s'
  | resumed {report : Report} {s' : State σ} : s.stage = .resuming report →
      s'.stage = .reporting .stopCommand report → Passage p s .main s'
  | reported {trigger : StopTrigger} {report : Report} {s' : State σ} :
      s.stage = .reporting trigger report → s'.stage = afterReport trigger report →
      Passage p s .main s'
  | signed {report : Report} {s' : State σ} : s.stage = .signing report →
      s'.stage = .leaving report → Passage p s .main s'
  | left {report : Report} {s' : State σ} : s.stage = .leaving report →
      s'.stage = .finished (.stopped .stopCommand report) → Passage p s .main s'

/-- Where the watch leads when an interrupt has ended it. -/
theorem afterWatch_cases (p : Plan σ) (reason : Option String) :
    afterWatch p .interrupted reason = .finished .orphaned ∨
    p.role.isSupervised = true ∧ afterWatch p .interrupted reason = .lingering ∨
    p.role.isSupervised = false ∧ afterWatch p .interrupted reason = .stopping .interrupted := by
  unfold afterWatch
  dsimp only
  split
  · exact .inl rfl
  · split
    · exact .inr (.inl ⟨‹_›, rfl⟩)
    · exact .inr (.inr ⟨Bool.eq_false_iff.mpr ‹_›, rfl⟩)

/-- Some stages are entered from one other stage only. -/
theorem Passage.origin {m : Move σ} (h : Passage p s m s') : s'.stage = s.stage ∨
    match s'.stage with
    | .raising trigger => m = .main ∧ s.stage = .stopping trigger
    | .leaving report => m = .main ∧ s.stage = .signing report
    | .finished (.stopped .stopCommand report) => s.stage = .leaving report
    | _ => True := by
  cases h with
  | elsewhere _ hsame => exact .inl hsame
  | recorded hs hnext | signed hs hnext =>
    rw [hnext]
    exact .inr ⟨rfl, hs⟩
  | left hs hnext =>
    rw [hnext]
    exact .inr hs
  | @missed _ last _ _ _ _ hnext | @consumed last _ _ _ _ hnext =>
    rw [hnext]
    cases last <;> exact .inr trivial
  | @joined trigger _ _ _ _ hnext | @swept trigger _ _ _ _ hnext
  | @reported trigger _ _ _ hnext =>
    rw [hnext]
    cases trigger <;> exact .inr trivial
  | @released trigger _ _ hnext =>
    rw [hnext]
    cases trigger with
    | stopCommand => exact .inr trivial
    | interrupted =>
      obtain hstage | ⟨_, hstage⟩ | ⟨_, hstage⟩ := afterWatch_cases p s.interrupt.reason <;>
        rw [hstage] <;> exact .inr trivial
  | begun _ _ hnext | answered _ _ hnext | opened _ hnext | booted _ _ hnext | failed _ _ hnext
  | interrupted _ _ hnext | roused _ _ hnext | turned _ _ _ hnext | woken _ _ hnext
  | found _ _ _ hnext | failedOnce _ hnext | lingered _ hnext | raised _ hnext | quieted _ hnext
  | drained _ hnext | sweeping _ _ hnext | resumed _ hnext =>
    rw [hnext]
    exact .inr trivial

/-- What a move does to the interrupt. -/
def State.interruptAfter (s : State σ) : Move σ → Interrupt
  | .main =>
    match s.stage with
    | .stopping _ => s.interrupt.recordReason stopping
    | .raising _ => s.interrupt.raise
    | _ => s.interrupt
  | .guardian =>
    match s.guardian with
    | .recording => s.interrupt.recordReason parentLost
    | .raising => s.interrupt.raise
    | _ => s.interrupt
  | .record reason => s.interrupt.recordReason reason
  | .raise => s.interrupt.raise
  | _ => s.interrupt

theorem look_passage {w : StopWatch} {last : Bool} (hs : s.stage = .polling last)
    (hw : p.watch = some w) : Passage p s .main (look p w last s) := by
  unfold look StopWatch.seesMarker
  dsimp only [FileSystem.within, callWithin]
  cases hprobe : (p.files.probe w.marker s.outside).1 with
  | ok answer =>
    refine .found hs hw ?_ rfl
    rw [sees, hprobe]
    rfl
  | error e =>
    refine .missed hs hw ?_ rfl
    rw [sees, hprobe]
    rfl

theorem remove_passage {w : StopWatch} {last : Bool} {left attempt : Nat}
    (hs : s.stage = .removing last left attempt) :
    Passage p s .main (remove p w last left attempt s) := by
  unfold remove
  cases left with
  | zero => exact .consumed hs rfl
  | succ left =>
    dsimp only
    split
    · exact .consumed hs rfl
    · exact .failedOnce hs rfl

/-- An attempt at removing the marker is a call to the file system. -/
theorem remove_outside (w : StopWatch) (last : Bool) (left attempt : Nat) (s : State σ) :
    (remove p w last (left + 1) attempt s).outside =
      (p.files.remove w.marker s.outside).2 := by
  rcases hremove : p.files.remove w.marker s.outside with ⟨e | _, outside⟩
  · by_cases hgone : e = .missing <;>
      simp [remove, StopWatch.removeOnce, FileSystem.within, callWithin, hremove, hgone, State.goTo,
        State.write]
  · simp [remove, StopWatch.removeOnce, FileSystem.within, callWithin, hremove, State.goTo]

theorem boot_passage (hs : s.stage = .booting) :
    Passage p s .main (boot p s) ∧ (boot p s).interrupt = s.interrupt := by
  unfold boot
  split
  · exact ⟨.failed hs rfl rfl, rfl⟩
  · exact ⟨.booted hs rfl rfl, rfl⟩

theorem sweep_passage {trigger : StopTrigger} {progress : Sweep.Progress HookScript}
    (hs : s.stage = .sweeping trigger progress) :
    Passage p s .main (sweep trigger progress s) ∧
      (sweep trigger progress s).interrupt = s.interrupt ∧
      (sweep trigger progress s).guardian = s.guardian := by
  unfold sweep
  split
  · rename_i hover
    exact ⟨.swept hs hover rfl, rfl, rfl⟩
  · rename_i hover
    exact ⟨.sweeping hs (Bool.eq_false_iff.mpr hover) rfl, rfl, rfl⟩

/-- A step of the main task follows one of its ways, and touches the interrupt only to trigger it
and the monitor only to start it. -/
theorem mainStep_passage (h : mainStep p s = some s') :
    Passage p s .main s' ∧ s'.interrupt = s.interruptAfter .main ∧
      (s.stage ≠ .booting → s'.guardian = s.guardian) := by
  unfold mainStep at h
  unfold State.interruptAfter
  cases hs : s.stage with
  | opening =>
    rw [hs] at h
    cases h
    refine ⟨.opened hs rfl, ?_, fun _ => ?_⟩ <;> split
    · exact State.interrupt_say _ s
    · rfl
    · exact State.guardian_say _ s
    · rfl
  | booting =>
    rw [hs] at h
    cases h
    exact ⟨(boot_passage hs).1, (boot_passage hs).2, fun hne => absurd rfl hne⟩
  | watching =>
    rw [hs] at h
    dsimp only at h
    split at h
    · rename_i hraised
      cases h
      exact ⟨.interrupted hs hraised rfl, rfl, fun _ => rfl⟩
    · rename_i hraised
      obtain ⟨w, hw, rfl⟩ := Option.map_eq_some_iff.mp h
      exact ⟨.turned hs (Bool.eq_false_iff.mpr hraised) hw rfl, rfl, fun _ => rfl⟩
  | polling last =>
    rw [hs] at h
    obtain ⟨w, hw, rfl⟩ := Option.map_eq_some_iff.mp h
    exact ⟨look_passage hs hw,
      look_frame (f := State.interrupt) (fun _ _ => rfl) (fun _ _ => rfl) (fun _ _ => rfl) w last s,
      fun _ => look_frame (fun _ _ => rfl) (fun _ _ => rfl) (fun _ _ => rfl) w last s⟩
  | removing last left attempt =>
    rw [hs] at h
    obtain ⟨w, hw, rfl⟩ := Option.map_eq_some_iff.mp h
    exact ⟨remove_passage hs,
      remove_frame (f := State.interrupt) (fun _ _ => rfl) (fun _ _ => rfl) (fun _ _ => rfl) w last
        left attempt s,
      fun _ => remove_frame (fun _ _ => rfl) (fun _ _ => rfl) (fun _ _ => rfl) w last left attempt
        s⟩
  | dozing =>
    rw [hs] at h
    cases h
    refine ⟨?_, rfl, fun _ => rfl⟩
    cases hraised : s.interrupt.raised with
    | true => exact .roused hs hraised (by simp)
    | false => exact .woken hs hraised (by simp)
  | released trigger =>
    rw [hs] at h
    cases h
    exact ⟨.released hs rfl, rfl, fun _ => rfl⟩
  | lingering =>
    rw [hs] at h
    cases h
    exact ⟨.lingered hs rfl, rfl, fun _ => rfl⟩
  | stopping trigger =>
    rw [hs] at h
    cases h
    exact ⟨.recorded hs rfl, State.interrupt_record _ s, fun _ => State.guardian_record _ s⟩
  | raising trigger =>
    rw [hs] at h
    cases h
    exact ⟨.raised hs rfl, rfl, fun _ => rfl⟩
  | joining trigger =>
    rw [hs] at h
    dsimp only at h
    split at h
    · cases h
      exact ⟨.joined rfl hs rfl, rfl, fun _ => rfl⟩
    · cases h
  | quieting =>
    rw [hs] at h
    cases h
    exact ⟨.quieted hs rfl, rfl, fun _ => rfl⟩
  | draining trigger =>
    rw [hs] at h
    cases h
    exact ⟨.drained hs rfl, rfl, fun _ => rfl⟩
  | sweeping trigger progress =>
    rw [hs] at h
    cases h
    obtain ⟨hpassage, hinterrupt, hguardian⟩ := sweep_passage hs
    exact ⟨hpassage, hinterrupt, fun _ => hguardian⟩
  | resuming report =>
    rw [hs] at h
    cases h
    exact ⟨.resumed hs rfl, rfl, fun _ => rfl⟩
  | reporting trigger report =>
    rw [hs] at h
    cases h
    exact ⟨.reported hs rfl, State.interrupt_say _ s, fun _ => State.guardian_say _ s⟩
  | signing report =>
    rw [hs] at h
    cases h
    exact ⟨.signed hs rfl, State.interrupt_say _ s, fun _ => State.guardian_say _ s⟩
  | leaving report =>
    rw [hs] at h
    cases h
    exact ⟨.left hs rfl, rfl, fun _ => rfl⟩
  | finished ending =>
    rw [hs] at h
    cases h

theorem giveUp_passage (h : s.giveUp = some s') :
    ∃ trigger, s.stage = .joining trigger ∧
      s' = (s.write lateMonitorEntry).goTo (afterMonitor trigger) := by
  unfold State.giveUp at h
  split at h
  · cases h
    exact ⟨_, ‹_›, rfl⟩
  · cases h

theorem begin_keeps {hook : Nat} {delay : Duration} (h : s.begin p hook delay = some s') :
    ∃ progress progress' worker, s.sweep? = some progress ∧
      progress.begin (call p) hook delay s.worker = some (progress', worker) ∧
      s' = { s with worker }.keepSweep progress' := by
  obtain ⟨progress, hsweep, hbegin⟩ := Option.bind_eq_some_iff.mp h
  obtain ⟨⟨progress', worker⟩, hb, rfl⟩ := Option.map_eq_some_iff.mp hbegin
  exact ⟨progress, progress', worker, hsweep, hb, rfl⟩

theorem deliver_keeps {hook : Nat} {outcome : Outcome} (h : s.deliver hook outcome = some s') :
    ∃ progress progress', s.sweep? = some progress ∧
      progress.deliver hook outcome = some progress' ∧ s' = s.keepSweep progress' := by
  obtain ⟨progress, hsweep, hdeliver⟩ := Option.bind_eq_some_iff.mp h
  obtain ⟨progress', hd, rfl⟩ := Option.map_eq_some_iff.mp hdeliver
  exact ⟨progress, progress', hsweep, hd, rfl⟩

/-! ## 3. The monitor's task -/

/-- A step of the monitor's task leads to the next point of its way. -/
theorem guardianStep_way (h : guardianStep p s = some s') :
    s'.stage = s.stage ∧ s'.interrupt = s.interruptAfter .guardian ∧
      match s.guardian with
      | .watching phase =>
        s'.guardian = .after (p.monitor.step (monitorSurroundings p) phase s).1
      | .muting => s'.guardian = .warning
      | .warning => s'.guardian = .recording
      | .recording => s'.guardian = .raising
      | .raising => s'.guardian = .done
      | .absent | .done => False := by
  unfold guardianStep at h
  unfold State.interruptAfter
  cases hg : s.guardian with
  | watching phase =>
    rw [hg] at h
    cases h
    exact ⟨monitor_frame (f := State.stage) (fun _ _ _ _ => rfl) (fun _ _ => rfl) phase s,
      monitor_frame (f := State.interrupt) (fun _ _ _ _ => rfl) (fun _ _ => rfl) phase s, rfl⟩
  | absent | done =>
    rw [hg] at h
    cases h
  | muting | warning | raising =>
    rw [hg] at h
    cases h
    exact ⟨rfl, rfl, rfl⟩
  | recording =>
    rw [hg] at h
    cases h
    exact ⟨State.stage_record parentLost s, State.interrupt_record parentLost s, rfl⟩

/-- Every move follows one of the ways of the main task. -/
theorem move_passage {m : Move σ} (h : s.move p m = some s') : Passage p s m s' := by
  cases m with
  | main => exact (mainStep_passage h).1
  | guardian => exact .elsewhere rfl (guardianStep_way h).1
  | giveUp =>
    obtain ⟨trigger, hs, rfl⟩ := giveUp_passage h
    exact .joined rfl hs rfl
  | begin hook delay =>
    obtain ⟨progress, progress', worker, hsweep, hb, rfl⟩ := begin_keeps h
    rcases State.sweep?_cases hsweep with ⟨trigger, hs⟩ | ⟨hs, _⟩
    · refine .begun hs hb ?_
      rw [State.keepSweep_of_sweeping (s := { s with worker }) hs]
      rfl
    · refine .elsewhere rfl ?_
      rw [State.keepSweep_of_left (s := { s with worker }) hs]
  | deliver hook outcome =>
    obtain ⟨progress, progress', hsweep, hd, rfl⟩ := deliver_keeps h
    rcases State.sweep?_cases hsweep with ⟨trigger, hs⟩ | ⟨hs, _⟩
    · exact .answered hs hd (by rw [State.keepSweep_of_sweeping hs]; rfl)
    · exact .elsewhere rfl (by rw [State.keepSweep_of_left hs])
  | raise | straggle line =>
    rw [State.move] at h
    split at h <;> cases h
    exact .elsewhere rfl rfl
  | record reason =>
    cases h
    exact .elsewhere rfl (State.stage_record reason s)
  | outside | register | deregister =>
    cases h
    exact .elsewhere rfl rfl

/-- Nobody touches the interrupt but to trigger it. -/
theorem interrupt_move {m : Move σ} (h : s.move p m = some s') :
    s'.interrupt = s.interruptAfter m := by
  cases m with
  | main => exact (mainStep_passage h).2.1
  | guardian => exact (guardianStep_way h).2.1
  | giveUp =>
    obtain ⟨trigger, _, rfl⟩ := giveUp_passage h
    rfl
  | begin hook delay =>
    obtain ⟨_, _, _, _, _, rfl⟩ := begin_keeps h
    simp [State.interruptAfter]
  | deliver hook outcome =>
    obtain ⟨_, _, _, _, rfl⟩ := deliver_keeps h
    simp [State.interruptAfter]
  | raise | straggle line =>
    rw [State.move] at h
    split at h <;> cases h
    rfl
  | record reason =>
    cases h
    exact State.interrupt_record reason s
  | outside | register | deregister =>
    cases h
    rfl

/-- Only the boot and the monitor's own steps move the monitor's task. -/
theorem guardian_move {m : Move σ} (h : s.move p m = some s') (hm : m ≠ .guardian)
    (hboot : m = .main → s.stage ≠ .booting) : s'.guardian = s.guardian := by
  cases m with
  | main => exact (mainStep_passage h).2.2 (hboot rfl)
  | guardian => exact absurd rfl hm
  | giveUp =>
    obtain ⟨trigger, _, rfl⟩ := giveUp_passage h
    rfl
  | begin hook delay =>
    obtain ⟨_, _, _, _, _, rfl⟩ := begin_keeps h
    simp
  | deliver hook outcome =>
    obtain ⟨_, _, _, _, rfl⟩ := deliver_keeps h
    simp
  | raise | straggle line =>
    rw [State.move] at h
    split at h <;> cases h
    rfl
  | record reason =>
    cases h
    exact State.guardian_record reason s
  | outside | register | deregister =>
    cases h
    rfl

/-- The monitor's task moves by itself, unless it is started. -/
theorem guardian_cases {m : Move σ} (h : s.move p m = some s') :
    m = .guardian ∨ s'.guardian = s.guardian ∨
      s.stage = .booting ∧ s'.guardian = .watching .starting ∧ s'.stage = .watching := by
  by_cases hm : m = .guardian
  · exact .inl hm
  · by_cases hboot : m = .main ∧ s.stage = .booting
    · obtain ⟨rfl, hbooting⟩ := hboot
      rw [State.move, mainStep, hbooting] at h
      cases h
      obtain ⟨hpassage, _⟩ := boot_passage (p := p) hbooting
      cases hpassage with
      | booted _ hwatching hnext => exact .inr (.inr ⟨hbooting, hwatching, hnext⟩)
      | failed _ hsame _ => exact .inr (.inl hsame)
      | elsewhere hturn => cases hturn
      | _ => simp_all
    · exact .inr (.inl (guardian_move h hm fun hmain hs => hboot ⟨hmain, hs⟩))

/-! ## 4. The sweep -/

/-- The registry stays closed. -/
theorem closed_move {m : Move σ} (h : s.move p m = some s')
    (hclosed : s.stage.phase.isOpen = false) : s'.stage.phase.isOpen = false := by
  cases move_effect h with
  | quiet _ _ _ hsame => rw [hsame, hclosed]
  | boot hs | drain hs =>
    rw [hs] at hclosed
    cases hclosed
  | register | deregister => exact hclosed
  | @sweep trigger _ _ =>
    unfold sweep
    split
    · cases trigger <;> rfl
    · rfl
  | @begin _ progress worker _ _ _ _ =>
    rcases State.phase_keepSweep progress { s with worker } with hsame | ⟨_, hsweeping⟩
    · rw [hsame, hclosed]
    · rw [hsweeping]
      rfl
  | @deliver _ progress _ _ _ _ =>
    rcases State.phase_keepSweep progress s with hsame | ⟨_, hsweeping⟩
    · rw [hsame, hclosed]
    · rw [hsweeping]
      rfl

/-- A run has no sweep before its registry is closed, and every hook that its sweep has handed over
has a box and a place in a queue. -/
structure State.Orderly (s : State σ) : Prop where
  left_eq_none : s.stage.phase.isOpen = true → s.left = none
  boxed : ∀ progress, s.sweep? = some progress → progress.IsBoxed

theorem orderly_start (p : Plan σ) (w : Worker) (o : σ) : (p.start w o).Orderly :=
  ⟨fun _ => rfl, nofun⟩

namespace State.Orderly

variable {progress progress' : Sweep.Progress HookScript}

theorem sweep?_eq_none (h : s.Orderly) (hopen : s.stage.phase.isOpen = true) : s.sweep? = none :=
  (State.sweep?_of_left (Stage.isSweeping_of_isOpen hopen)).trans (h.left_eq_none hopen)

theorem closed (h : s.Orderly) (hsweep : s.sweep? = some progress) :
    s.stage.phase.isOpen = false := by
  cases hopen : s.stage.phase.isOpen with
  | false => rfl
  | true => cases (h.sweep?_eq_none hopen).symm.trans hsweep

theorem of_open (hopen : s.stage.phase.isOpen = true) (hleft : s.left = none) : s.Orderly := by
  refine ⟨fun _ => hleft, fun q hq => ?_⟩
  rw [State.sweep?_of_left (Stage.isSweeping_of_isOpen hopen), hleft] at hq
  cases hq

/-- A sweep that goes on. -/
theorem keepSweep (h : s.Orderly) (hsweep : s.sweep? = some progress) (w : Worker)
    (hboxed : progress'.IsBoxed) : ({ s with worker := w }.keepSweep progress').Orderly := by
  refine ⟨fun hopen => ?_, fun q hq => ?_⟩
  · have hclosed := h.closed hsweep
    rcases State.phase_keepSweep progress' { s with worker := w } with hsame | ⟨_, hsweeping⟩
    · cases hclosed.symm.trans (hsame ▸ hopen)
    · rw [hsweeping] at hopen
      cases hopen
  · rw [State.sweep?_keepSweep] at hq
    cases hq
    exact hboxed

/-- What leaves hooks and the phase alone keeps a run orderly. -/
theorem quiet (h : s.Orderly) (hledger : s'.ledger = s.ledger)
    (hphase : s'.stage.phase = s.stage.phase) : s'.Orderly := by
  have hleft := (State.ledger_inj hledger).2
  refine ⟨fun hopen => hleft.trans (h.left_eq_none (hphase ▸ hopen)), fun q hq => ?_⟩
  rw [State.sweep?_eq hphase hleft] at hq
  exact h.boxed q hq

protected theorem move {m : Move σ} (hs : s.Orderly) (h : s.move p m = some s') : s'.Orderly := by
  cases move_effect h with
  | quiet _ _ hledger hphase => exact hs.quiet hledger hphase
  | boot hbooting =>
    refine .of_open ?_ ((boot_left p s).trans (hs.left_eq_none (by rw [hbooting]; rfl)))
    rcases boot_phase p s with hphase | ⟨failure, hphase⟩ <;> rw [hphase] <;> rfl
  | drain =>
    refine ⟨nofun, fun q hq => ?_⟩
    cases hq
    exact Sweep.isBoxed_start ..
  | @sweep trigger progress hsweeping =>
    have hboxed := hs.boxed progress (State.sweep?_of_sweeping hsweeping)
    unfold Run.sweep
    split
    · cases trigger <;> refine ⟨nofun, fun q hq => ?_⟩ <;> cases hq <;> exact hboxed
    · refine ⟨nofun, fun q hq => ?_⟩
      cases hq
      exact hboxed.step _ s.worker
  | register | deregister => exact ⟨hs.left_eq_none, hs.boxed⟩
  | begin hsweep hbegin => exact hs.keepSweep hsweep _ ((hs.boxed _ hsweep).begin _ hbegin)
  | deliver hsweep hdeliver =>
    exact hs.keepSweep hsweep s.worker ((hs.boxed _ hsweep).deliver hdeliver)

end State.Orderly

theorem orderly_run {w : Worker} {o : σ} {ms : List (Move σ)}
    (h : (p.start w o).moves p ms = some s) : s.Orderly :=
  State.moves_induction (motive := fun _ s => s.Orderly) (orderly_start p w o)
    (fun _ _ _ _ _ hm hs => hs.move hm) h

end Run

end SupervisedWorker
