import SupervisedWorker.Proofs.Hook.Registry
import SupervisedWorker.Proofs.Run.Course
import SupervisedWorker.Proofs.Run.History

/-!
# That a run returns

Once its services are started, a run may watch for ever. It is under way to its end as soon as the
interrupt is raised or the marker was found: from then on every turn of the main task brings the end
nearer, and only a hook that somebody registers puts it off.

Results:
1. `rank_move`: what a turn takes from the distance to the end, and what a new hook adds.
2. `turns_bounded`: how many turns of the main task are left.
3. `turn_possible`: until the end the main task is never stuck.
-/

namespace SupervisedWorker

namespace Sweep.Progress

variable {α σ : Type}

/-- How many steps a sweep has before it. -/
def remaining (p : Progress α) : Nat := 2 * p.waiting.length + p.current.toList.length

theorem remaining_step (around : Surroundings α σ) {p : Progress α} (h : p.isOver = false) (s : σ) :
    (p.step around s).1.remaining < p.remaining := by
  unfold step remaining
  cases hcurrent : p.current with
  | some current => simp
  | none =>
    cases hwaiting : p.waiting with
    | nil => simp [isOver, hcurrent, hwaiting] at h
    | cons next rest =>
      simp
      omega

/-- A thread that starts on a hook leaves the sweep as many steps as it had. -/
theorem remaining_begin {call : Call α σ} {p p' : Progress α} {hook : Nat} {delay : Duration}
    {s s' : σ} (hboxed : p.IsBoxed) (h : p.begin call hook delay s = some (p', s')) :
    p'.remaining = p.remaining := by
  obtain ⟨w, next, hjob, _, ⟨_, rfl⟩ | ⟨hwait, _, rfl⟩⟩ := begin_cases h
  · rfl
  · obtain ⟨x, hx⟩ := Option.isSome_iff_exists.mp (hboxed.current_isSome hjob hwait)
    simp [remaining, answered, hx]

theorem remaining_deliver {p p' : Progress α} {hook : Nat} {outcome : Outcome}
    (h : p.deliver hook outcome = some p') : p'.remaining = p.remaining := by
  unfold deliver at h
  split at h <;> cases h
  rfl

end Sweep.Progress

namespace Run

variable {σ : Type} {p : Plan σ} {s s' s₀ : State σ}

/-! ## 1. The distance to the end -/

/-- An upper bound on the turns that the main task has before it, where the removal of the marker
may be attempted `attempts` times and `hooks` hooks are registered. -/
def Stage.rank (attempts hooks : Nat) : Stage → Nat
  | .finished _ => 0
  | .leaving _ => 1
  | .signing _ => 2
  | .reporting _ _ => 3
  | .resuming _ => 4
  | .sweeping _ progress => 5 + progress.remaining
  | .draining _ => 6 + 2 * hooks
  | .quieting => 7 + 2 * hooks
  | .joining _ => 8 + 2 * hooks
  | .raising _ => 9 + 2 * hooks
  | .stopping _ => 10 + 2 * hooks
  | .removing true left _ => 11 + left + 2 * hooks
  | .polling true => 12 + attempts + 2 * hooks
  | .lingering => 13 + attempts + 2 * hooks
  | .released _ => 14 + attempts + 2 * hooks
  | .removing false left _ => 15 + left + attempts + 2 * hooks
  | .watching | .dozing => 15 + attempts + 2 * hooks
  | .polling false => 16 + 2 * attempts + 2 * hooks
  | .opening | .booting => 0

theorem Stage.rank_mono (stage : Stage) {attempts hooks hooks' more : Nat}
    (h : hooks' ≤ hooks + more) :
    stage.rank attempts hooks' ≤ stage.rank attempts hooks + 2 * more := by
  unfold Stage.rank
  split <;> omega

/-- Whether the services of a run are started. -/
def Stage.isBooted : Stage → Bool
  | .opening | .booting | .finished (.bootFailed _) => false
  | _ => true

/-- Whether a stage belongs to the watch for the marker. -/
def Stage.isWatch : Stage → Bool
  | .watching | .dozing | .polling false => true
  | _ => false

theorem rank_afterMonitor (trigger : StopTrigger) (attempts hooks : Nat) :
    (afterMonitor trigger).rank attempts hooks < 8 + 2 * hooks := by
  cases trigger <;> simp only [afterMonitor, Stage.rank] <;> omega

theorem rank_afterSweep (trigger : StopTrigger) (report : Report) (attempts hooks : Nat) :
    (afterSweep trigger report).rank attempts hooks < 5 := by
  cases trigger <;> simp only [afterSweep, Stage.rank] <;> omega

theorem rank_afterReport (trigger : StopTrigger) (report : Report) (attempts hooks : Nat) :
    (afterReport trigger report).rank attempts hooks < 3 := by
  cases trigger <;> simp only [afterReport, Stage.rank] <;> omega

theorem rank_afterWatch (p : Plan σ) (trigger : StopTrigger) (reason : Option String)
    (attempts hooks : Nat) :
    (afterWatch p trigger reason).rank attempts hooks < 14 + attempts + 2 * hooks := by
  cases trigger with
  | stopCommand =>
    simp only [afterWatch, Stage.rank]
    omega
  | interrupted =>
    obtain hstage | ⟨_, hstage⟩ | ⟨_, hstage⟩ := afterWatch_cases p reason <;>
      rw [hstage] <;> simp only [Stage.rank] <;> omega

/-- A turn of the main task brings the end nearer, once the run is under way to it. -/
theorem Passage.rank_lt {attempts : Nat} {m : Move σ} (h : Passage p s m s')
    (hwatch : ∀ w, p.watch = some w → w.attempts = attempts) (hturn : m.isTurn = true)
    (hbooted : s.stage.isBooted = true)
    (hunder : s.stage.isWatch = true → s.interrupt.raised = true) :
    s'.stage.rank attempts s.worker.registry.hooks.length <
      s.stage.rank attempts s.worker.registry.hooks.length := by
  cases h with
  | elsewhere hothers _ =>
    rw [hothers] at hturn
    cases hturn
  | begun | answered => cases hturn
  | opened hs _ | booted hs _ _ | failed hs _ _ =>
    rw [hs] at hbooted
    cases hbooted
  | turned hs hraised _ _ | woken hs hraised _ =>
    rw [hs, hraised] at hunder
    cases hunder rfl
  | @found w last _ hs hw _ hnext =>
    rw [hs, hnext, hwatch w hw]
    cases last <;> simp only [Stage.rank] <;> omega
  | @missed _ last _ hs _ _ hnext =>
    rw [hs, hnext]
    cases last <;> simp only [afterNothing, Stage.rank] <;> simp <;> omega
  | @consumed last _ _ _ hs hnext =>
    rw [hs, hnext]
    cases last <;> simp [afterMarker, Stage.rank] <;> omega
  | @failedOnce last _ _ _ hs hnext =>
    rw [hs, hnext]
    cases last <;> simp only [Stage.rank] <;> omega
  | released hs hnext =>
    rw [hs, hnext]
    exact rank_afterWatch p _ _ _ _
  | joined _ hs hnext =>
    rw [hs, hnext]
    exact rank_afterMonitor _ _ _
  | drained hs hnext =>
    rw [hs, hnext]
    simp [Stage.rank, Sweep.Progress.remaining, Sweep.Progress.start]
  | swept hs _ hnext =>
    rw [hs, hnext]
    exact Nat.lt_of_lt_of_le (rank_afterSweep _ _ _ _) (Nat.le_add_right _ _)
  | sweeping hs hmore hnext =>
    rw [hs, hnext]
    exact Nat.add_lt_add_left (Sweep.Progress.remaining_step _ hmore _) 5
  | reported hs hnext =>
    rw [hs, hnext]
    exact rank_afterReport _ _ _ _
  | interrupted hs _ hnext | roused hs _ hnext | lingered hs hnext | recorded hs hnext
  | raised hs hnext | quieted hs hnext | resumed hs hnext | signed hs hnext | left hs hnext =>
    rw [hs, hnext]
    simp only [Stage.rank]
    omega

/-- Whatever the others do leaves the main task where it is, or is about the sweep. -/
theorem Passage.rank_eq {m : Move σ} (h : Passage p s m s') (hs : s.Orderly)
    (hother : m.isTurn = false) (attempts hooks : Nat) : s'.stage.rank attempts hooks = s.stage.rank attempts hooks := by
  cases h with
  | elsewhere _ hsame => rw [hsame]
  | begun hstage hbegin hnext =>
    have hboxed := hs.boxed _ (State.sweep?_of_sweeping hstage)
    rw [hstage, hnext]
    exact congrArg (5 + ·) (Sweep.Progress.remaining_begin hboxed hbegin)
  | answered hstage hdeliver hnext =>
    rw [hstage, hnext]
    exact congrArg (5 + ·) (Sweep.Progress.remaining_deliver hdeliver)
  | joined hturn =>
    rw [hother] at hturn
    cases hturn
  | _ => cases hother

/-! ## 2. Under way -/

/-- The services are started, and the watch for the marker is over or will be at the next look. -/
structure State.UnderWay (s : State σ) : Prop where
  orderly : s.Orderly
  booted : s.stage.isBooted = true
  raised : s.stage.isWatch = true → s.interrupt.raised = true

theorem isBooted_afterWatch (p : Plan σ) (trigger : StopTrigger) (reason : Option String) :
    (afterWatch p trigger reason).isBooted = true ∧
      (afterWatch p trigger reason).isWatch = false := by
  cases trigger with
  | stopCommand => exact ⟨rfl, rfl⟩
  | interrupted =>
    obtain hstage | ⟨_, hstage⟩ | ⟨_, hstage⟩ := afterWatch_cases p reason <;>
      rw [hstage] <;> exact ⟨rfl, rfl⟩

/-- A run whose services are started never starts them again, nor goes back to the watch. -/
theorem Passage.isBooted {m : Move σ} (h : Passage p s m s') (hbooted : s.stage.isBooted = true) :
    s'.stage.isBooted = true ∧ (s'.stage.isWatch = true → s.stage.isWatch = true) := by
  cases h with
  | elsewhere _ hsame =>
    rw [hsame]
    exact ⟨hbooted, id⟩
  | opened hs _ | booted hs _ _ | failed hs _ _ =>
    rw [hs] at hbooted
    cases hbooted
  | turned hs _ _ hnext | woken hs _ hnext =>
    rw [hs, hnext]
    exact ⟨rfl, fun _ => rfl⟩
  | @missed _ last _ hs _ _ hnext =>
    rw [hs, hnext]
    cases last
    · exact ⟨rfl, fun _ => rfl⟩
    · exact ⟨rfl, nofun⟩
  | @consumed last _ _ _ hs hnext =>
    rw [hnext]
    cases last <;> exact ⟨rfl, nofun⟩
  | released hs hnext =>
    obtain ⟨hbooted', hwatch⟩ := isBooted_afterWatch p _ s.interrupt.reason
    rw [hnext]
    exact ⟨hbooted', fun hwatch' => by rw [hwatch] at hwatch'; cases hwatch'⟩
  | @joined trigger _ _ _ hs hnext | @swept trigger _ _ hs _ hnext
  | @reported trigger _ _ hs hnext =>
    rw [hnext]
    cases trigger <;> exact ⟨rfl, nofun⟩
  | begun _ _ hnext | answered _ _ hnext | interrupted _ _ hnext | roused _ _ hnext
  | found _ _ _ hnext | failedOnce _ hnext | lingered _ hnext | recorded _ hnext | raised _ hnext
  | quieted _ hnext | drained _ hnext | sweeping _ _ hnext | resumed _ hnext | signed _ hnext
  | left _ hnext =>
    rw [hnext]
    exact ⟨rfl, nofun⟩

/-- An interrupt that is raised stays raised. -/
theorem raised_move {m : Move σ} (h : s.move p m = some s') (hraised : s.interrupt.raised = true) :
    s'.interrupt.raised = true := by
  rw [interrupt_move h]
  unfold State.interruptAfter
  split
  · split <;> first | exact hraised | rfl
  · split <;> first | exact hraised | rfl
  all_goals first | exact hraised | rfl

theorem State.UnderWay.move {m : Move σ} (hs : s.UnderWay) (h : s.move p m = some s') :
    s'.UnderWay := by
  obtain ⟨hbooted, hwatch⟩ := (move_passage h).isBooted hs.booted
  exact ⟨hs.orderly.move h, hbooted, fun hwatch' => raised_move h (hs.raised (hwatch hwatch'))⟩

/-! ## 3. The turns that are left -/

/-- Whether a move registers a hook. -/
def Move.isRegistration : Move σ → Bool
  | .register .. => true
  | _ => false

/-- An upper bound on the turns that are left to the main task, given that nobody registers another
hook, where the removal of the marker may be attempted `attempts` times. -/
def State.rank (attempts : Nat) (s : State σ) : Nat :=
  s.stage.rank attempts s.worker.registry.hooks.length

/-- The same for a run that watches. -/
def State.distance (w : StopWatch) (s : State σ) : Nat :=
  s.stage.rank w.attempts s.worker.registry.hooks.length

/-- As long as the registry is open, only a registration adds a hook. -/
theorem hooks_move {m : Move σ} (h : s.move p m = some s') (hs : s.Orderly)
    (hbooted : s.stage.isBooted = true) (hopen : s.stage.phase.isOpen = true) :
    s'.worker.registry.hooks.length ≤
      s.worker.registry.hooks.length + if m.isRegistration then 1 else 0 := by
  cases move_effect h with
  | quiet _ _ hledger _ =>
    rw [(Worker.ledger_inj (State.ledger_inj hledger).1).1]
    exact Nat.le_add_right _ _
  | boot hs =>
    rw [hs] at hbooted
    cases hbooted
  | drain hs => exact Nat.zero_le _
  | register name script =>
    simp only [Worker.register, Worker.attach, Registry.hooks_register, Move.isRegistration]
    split <;> simp
  | deregister number =>
    simp only [Worker.deregister, Move.isRegistration]
    split
    · exact Nat.le_add_right _ _
    · exact List.eraseP_sublist.length_le
  | sweep hstage =>
    rw [hstage] at hopen
    cases hopen
  | begin hsweep _ | deliver hsweep _ => cases (hs.sweep?_eq_none hopen).symm.trans hsweep

/-- From the drain on, the distance to the end does not depend on the registry. -/
theorem rank_sealed {stage : Stage} (h : stage.phase.isOpen = false) (attempts hooks hooks' : Nat) :
    stage.rank attempts hooks = stage.rank attempts hooks' := by
  unfold Stage.phase at h
  split at h <;> first | rfl | cases h

section Attempts

variable {attempts : Nat} (hwatch : ∀ w, p.watch = some w → w.attempts = attempts)

include hwatch

/-- A turn of the main task brings the end nearer, and only a registration puts it off. -/
theorem rank_move {m : Move σ} (hs : s.UnderWay) (h : s.move p m = some s') :
    s'.rank attempts + (if m.isTurn then 1 else 0) ≤
      s.rank attempts + 2 * if m.isRegistration then 1 else 0 := by
  -- The turn shortens the way as the registry stands, and the registry may grow meanwhile.
  have hrank : s'.stage.rank attempts s.worker.registry.hooks.length +
      (if m.isTurn then 1 else 0) ≤ s.rank attempts := by
    have hpassage := move_passage h
    cases hturn : m.isTurn with
    | true => exact hpassage.rank_lt hwatch hturn hs.booted hs.raised
    | false => exact Nat.le_of_eq (hpassage.rank_eq hs.orderly hturn _ _)
  have hhooks : s'.rank attempts ≤ s'.stage.rank attempts s.worker.registry.hooks.length +
      2 * if m.isRegistration then 1 else 0 := by
    cases hopen : s.stage.phase.isOpen with
    | true => exact s'.stage.rank_mono (hooks_move h hs.orderly hs.booted hopen)
    | false =>
      rw [State.rank, rank_sealed (closed_move h hopen)]
      exact Nat.le_add_right _ _
  omega

/-- Once a run is under way to its end, only so many turns of the main task are left. -/
theorem turns_bounded {ms : List (Move σ)} (hs : s.UnderWay) (h : s.moves p ms = some s') :
    s'.rank attempts + ms.countP Move.isTurn ≤
      s.rank attempts + 2 * ms.countP Move.isRegistration := by
  induction ms generalizing s with
  | nil =>
    cases h
    exact Nat.le_refl _
  | cons m ms ih =>
    obtain ⟨t, ht, hrest⟩ := Option.bind_eq_some_iff.mp h
    have hfirst := rank_move hwatch hs ht
    have hrest := ih (hs.move ht) hrest
    rw [List.countP_cons, List.countP_cons]
    omega

end Attempts

/-- The same for a run that watches. -/
theorem turns_le {w : StopWatch} (hw : p.watch = some w) {ms : List (Move σ)} (hs : s.UnderWay)
    (h : s.moves p ms = some s') :
    s'.distance w + ms.countP Move.isTurn ≤ s.distance w + 2 * ms.countP Move.isRegistration := by
  have hwatch : ∀ w', p.watch = some w' → w'.attempts = w.attempts :=
    fun w' hw' => congrArg StopWatch.attempts (Option.some.inj (hw'.symm.trans hw))
  exact turns_bounded hwatch hs h

/-- Until a run has ended, its main task has a turn to take. -/
theorem turn_possible {w : StopWatch} (hw : p.watch = some w) (h : s.ending? = none) :
    ∃ m, m.isTurn = true ∧ (s.move p m).isSome = true := by
  cases hs : s.stage with
  | finished ending =>
    rw [State.ending?, hs] at h
    cases h
  | joining trigger =>
    refine ⟨.giveUp, rfl, ?_⟩
    rw [State.move, State.giveUp, hs]
    rfl
  | watching =>
    refine ⟨.main, rfl, ?_⟩
    rw [State.move, mainStep, hs, hw]
    dsimp only
    split <;> rfl
  | polling | removing =>
    refine ⟨.main, rfl, ?_⟩
    rw [State.move, mainStep, hs, hw]
    rfl
  | _ =>
    refine ⟨.main, rfl, ?_⟩
    rw [State.move, mainStep, hs]
    rfl

end Run

end SupervisedWorker
