import SupervisedWorker.Proofs.Run.Accounting
import SupervisedWorker.Proofs.Run.Protocol

/-!
# Runs that stand alone

A process without an agent watches for no marker, and its monitor has nobody to ask about. The run
waits for the interrupt, and then calls its hooks. Whoever triggers the interrupt gives a reason in
words of his own, which may be those of a monitor that has lost its agent. The main task looks at
the words only, and leaves the hooks alone.

Results:
1. `Alone.passage`: the ways of the main task where there is no agent.
2. `calm_alone`, `gate_alone`: the monitor never triggers the interrupt, and nobody moves the gate.
3. `turn_possible_alone`: a run that is interrupted is never stuck.
4. `alone_ends_by_reason`: the first reason decides between the sweep and the orphan's end.
5. `orphaned_without_agent`: that a run without an agent may end as an orphan.
-/

namespace SupervisedWorker

namespace Run

variable {σ : Type} {p : Plan σ} {s s' s₀ : State σ}

/-! ## 1. The main task -/

/-- Where the main task of a run without an agent may stand, given the reason of the interrupt. -/
inductive Alone (reason : Option String) : Stage → Prop
  | early {stage : Stage} : stage.leg = .early → Alone reason stage
  | watching : Alone reason .watching
  | released : reason.isSome = true → Alone reason (.released .interrupted)
  /-- On its way to the sweep and from there to the end. -/
  | closing {stage : Stage} :
      stage.leg = .closing .interrupted → Foreign reason → Alone reason stage
  | orphaned : reason = some parentLost → Alone reason (.finished .orphaned)

/-- A later reason changes nothing about where the main task may stand. -/
theorem Alone.later {reason reason' : Option String} {stage : Stage} (h : Alone reason stage)
    (hkept : ∀ r, reason = some r → reason' = some r) : Alone reason' stage := by
  cases h with
  | early hleg => exact .early hleg
  | watching => exact .watching
  | released hsome =>
    obtain ⟨r, hr⟩ := Option.isSome_iff_exists.mp hsome
    exact .released (hkept r hr ▸ rfl)
  | closing hleg hforeign =>
    obtain ⟨r, hr, hne⟩ := hforeign
    exact .closing hleg ⟨r, hkept r hr, hne⟩
  | orphaned hlost => exact .orphaned (hkept _ hlost)

/-- Where the end of the watch leads without an agent: the reason alone decides. -/
theorem alone_afterWatch (halone : p.role.isSupervised = false) {reason : Option String}
    (hsome : reason.isSome = true) : Alone reason (afterWatch p .interrupted reason) := by
  by_cases hlost : reason = some parentLost
  · rw [afterWatch, if_pos hlost]
    exact .orphaned hlost
  · obtain ⟨r, hr⟩ := Option.isSome_iff_exists.mp hsome
    rw [afterWatch, if_neg hlost, halone]
    exact .closing rfl ⟨r, hr, fun hwords => hlost (hwords ▸ hr)⟩

theorem Alone.passage {m : Move σ} (hs : Alone s.interrupt.reason s.stage)
    (halone : p.role.isSupervised = false) (hreasoned : s.Reasoned) (h : Passage p s m s') :
    Alone s.interrupt.reason s'.stage := by
  cases h with
  | elsewhere _ hsame =>
    rw [hsame]
    exact hs
  | opened _ hnext | failed _ _ hnext =>
    rw [hnext]
    exact .early rfl
  | booted _ _ hnext =>
    rw [hnext]
    exact .watching
  | interrupted _ hraised hnext | roused _ hraised hnext =>
    rw [hnext]
    exact .released (hreasoned.raised hraised)
  | released hstage hnext =>
    rw [hstage] at hs
    rw [hnext]
    cases hs with
    | early hleg | closing hleg => cases hleg
    | released hsome => exact alone_afterWatch halone hsome
  | recorded hstage hnext | raised hstage hnext | joined _ hstage hnext | drained hstage hnext
  | swept hstage _ hnext | sweeping hstage _ hnext | reported hstage hnext
  | begun hstage _ hnext | answered hstage _ hnext =>
    rw [hstage] at hs
    rw [hnext]
    cases hs with
    | early hleg => cases hleg
    | closing hleg hforeign =>
      cases hleg
      exact .closing rfl hforeign
  | turned _ _ hw | found _ hw | missed _ hw =>
    -- Without an agent there is no marker to watch for.
    rw [supervised_of_watch hw] at halone
    cases halone
  | woken hstage | consumed hstage | failedOnce hstage | lingered hstage | quieted hstage
  | resumed hstage | signed hstage | left hstage =>
    rw [hstage] at hs
    cases hs with
    | early hleg | closing hleg => cases hleg

/-- Where the main task stands, whatever has happened in a run without an agent. -/
theorem alone (halone : p.role.isSupervised = false) {w : Worker} {o : σ} {ms : List (Move σ)}
    (h : (p.start w o).moves p ms = some s) : Alone s.interrupt.reason s.stage := by
  refine State.moves_induction (motive := fun _ s => Alone s.interrupt.reason s.stage)
    (.early rfl) ?_ h
  intro _ m s s' hs hm ih
  exact (ih.passage halone (reasoned hs) (move_passage hm)).later fun r hr => reason_kept hm hr

/-! ## 2. The monitor and the gate -/

/-- A monitor without an agent never finds one dead. -/
theorem calm_alone (halone : p.role.isSupervised = false) {w : Worker} {o : σ}
    {ms : List (Move σ)} (h : (p.start w o).moves p ms = some s) : s.guardian.isCalm = true := by
  refine State.moves_induction (motive := fun _ s => s.guardian.isCalm = true) rfl ?_ h
  intro _ m s s' _ hm ih
  refine calm_move hm ?_ ih
  rintro ⟨_, _, i, _, hi, _⟩
  cases hrole : p.role with
  | standalone =>
    rw [hrole] at hi
    cases hi
  | supervised identity =>
    rw [hrole] at halone
    cases halone

theorem monitor_silent (halone : p.role.isSupervised = false) {w : Worker} {o : σ}
    {ms : List (Move σ)} (h : (p.start w o).moves p ms = some s) :
    .monitor ∉ callers p (p.start w o) ms := by
  intro hcalls
  obtain ⟨e, he, hcalls⟩ := (mem_collect_iff h).mp hcalls
  obtain ⟨before, _, _, hbefore, _⟩ := (mem_history_iff h).mp he
  have hcalm := calm_alone halone hbefore
  cases hm : e.move with
  | main =>
    simp only [hm, State.callers] at hcalls
    split at hcalls <;> simp at hcalls
  | guardian =>
    simp only [hm, State.callers] at hcalls
    split at hcalls
    · rename_i hrecording
      rw [hrecording] at hcalm
      cases hcalm
    · cases hcalls
  | record reason =>
    rw [hm] at hcalls
    simp [State.callers] at hcalls
  | _ =>
    rw [hm] at hcalls
    cases hcalls

/-- Neither task moves the gate where there is no agent. -/
theorem gating_alone {m : Move σ} (hs : Alone s.interrupt.reason s.stage)
    (hcalm : s.guardian.isCalm = true) : s.gating m = none := by
  cases m with
  | main =>
    simp only [State.gating]
    split
    · rename_i hstage
      rw [hstage] at hs
      cases hs with
      | early hleg | closing hleg => cases hleg
    · rename_i hstage
      rw [hstage] at hs
      cases hs with
      | early hleg | closing hleg => cases hleg
    · rfl
  | guardian =>
    simp only [State.gating]
    split
    · rename_i hmuting
      rw [hmuting] at hcalm
      cases hcalm
    · rfl
  | _ => rfl

theorem gate_alone (halone : p.role.isSupervised = false) {w : Worker} {o : σ}
    {ms : List (Move σ)} (h : (p.start w o).moves p ms = some s) :
    s.worker.gate.suppressed = w.gate.suppressed := by
  refine State.moves_induction (motive := fun _ s =>
    s.worker.gate.suppressed = w.gate.suppressed) rfl ?_ h
  intro _ m s s' hs hm ih
  rw [suppressed_move hm (sealed_run hs), gating_alone (alone halone hs) (calm_alone halone hs)]
  exact ih

/-! ## 3. The way to the end -/

/-- Until a run without an agent has ended, its main task has a turn to take, unless it waits for
the interrupt. -/
theorem turn_possible_alone (hs : Alone s.interrupt.reason s.stage)
    (hwatch : s.stage.isWatch = true → s.interrupt.raised = true) (h : s.ending? = none) :
    ∃ m, m.isTurn = true ∧ (s.move p m).isSome = true := by
  cases hstage : s.stage with
  | finished ending =>
    rw [State.ending?, hstage] at h
    cases h
  | joining trigger =>
    refine ⟨.giveUp, rfl, ?_⟩
    rw [State.move, State.giveUp, hstage]
    rfl
  | watching =>
    rw [hstage] at hwatch
    refine ⟨.main, rfl, ?_⟩
    rw [State.move, mainStep, hstage]
    dsimp only
    rw [if_pos (hwatch rfl)]
    rfl
  | polling last =>
    rw [hstage] at hs
    cases hs with
    | early hleg | closing hleg => cases last <;> cases hleg
  | removing =>
    rw [hstage] at hs
    cases hs with
    | early hleg | closing hleg => cases hleg
  | _ =>
    refine ⟨.main, rfl, ?_⟩
    rw [State.move, mainStep, hstage]
    rfl

/-! ## 4. The ending -/

/-- The reason is the monitor's only if somebody else has given it first. -/
theorem first_disguised_iff (halone : p.role.isSupervised = false) {w : Worker} {o : σ}
    {ms : List (Move σ)} (h : (p.start w o).moves p ms = some s) :
    (callers p (p.start w o) ms).head? = some (.other parentLost) ↔
      s.interrupt.reason = some parentLost := by
  rw [reason_eq h]
  constructor
  · intro hfirst
    rw [hfirst]
    rfl
  · intro hreason
    obtain ⟨caller, hfirst, hgives⟩ := Option.map_eq_some_iff.mp hreason
    cases caller with
    | monitor => exact absurd (List.mem_of_mem_head? hfirst) (monitor_silent halone h)
    | mainTask => exact absurd hgives (by decide)
    | other reason =>
      rw [hfirst]
      exact congrArg (fun words => some (Caller.other words)) hgives

/-- How a run that stands alone ends. -/
structure EndsAlone (p : Plan σ) (s₀ : State σ) (ms : List (Move σ)) (s : State σ)
    (ending : Ending) : Prop where
  /-- It ends as an orphan exactly if the first to trigger the interrupt has said that the agent is
  gone. -/
  orphaned : ending = .orphaned ↔ (callers p s₀ ms).head? = some (.other parentLost)
  stopped : ending ≠ .orphaned → ∃ report, ending = .stopped .interrupted report
  /-- Then the hooks wait where they are. -/
  abandoned : ending = .orphaned → s₀.worker.Sound → s₀.worker.registry.drained = false →
    s.worker.calls = s₀.worker.calls ∧ s.worker.registry = ⟨kept p s₀ ms, false⟩
  /-- Otherwise they were swept. -/
  swept : ∀ report, ending = .stopped .interrupted report → s₀.worker.Sound →
    s₀.worker.registry.drained = false → ∃ hooks progress, Drained p s₀ ms hooks ∧
      s.left = some progress ∧ report = progress.report ∧
      Sweep.Swept s₀.worker.calls p.hookLimit hooks.reverse progress s.worker

theorem ends_alone (halone : p.role.isSupervised = false) {w : Worker} {o : σ}
    {ms : List (Move σ)} {ending : Ending} (h : (p.start w o).moves p ms = some s)
    (hbooted : s.stage.isBooted = true) (hs : s.stage = .finished ending) :
    EndsAlone p (p.start w o) ms s ending := by
  have hstage := alone halone h
  have hfirst := first_disguised_iff halone h
  have hstanding := fun (hw : (p.start w o).worker.Sound)
    (hopen : (p.start w o).worker.registry.drained = false) => (standing hw hopen h).finished hs
  rw [hs] at hstage hbooted
  cases ending with
  | bootFailed failure => cases hbooted
  | orphaned =>
    have hlost : s.interrupt.reason = some parentLost := by
      cases hstage with
      | early hleg | closing hleg => cases hleg
      | orphaned hlost => exact hlost
    refine ⟨⟨fun _ => hfirst.mpr hlost, fun _ => rfl⟩, fun hne => absurd rfl hne, ?_, nofun⟩
    intro _ hw hopen
    exact ⟨(hstanding hw hopen).calls, (hstanding hw hopen).registry⟩
  | stopped trigger report =>
    have hclosing : trigger = .interrupted ∧ Foreign s.interrupt.reason := by
      cases hstage with
      | early hleg => cases hleg
      | closing hleg hforeign =>
        cases hleg
        exact ⟨rfl, hforeign⟩
    obtain ⟨rfl, hforeign⟩ := hclosing
    refine ⟨⟨nofun, fun hlost => absurd (hfirst.mp hlost) hforeign.ne⟩, fun _ => ⟨report, rfl⟩,
      nofun, ?_⟩
    intro report' hending hw hopen
    cases hending
    exact hstanding hw hopen

/-- However a run without an agent comes to its end, the first reason alone decides which end it is.

Its monitor never triggers the interrupt, and nobody moves its gate. As soon as the interrupt is
raised, the main task is never stuck and only so many of its turns are left. Then it stops after a
sweep, unless the first to trigger the interrupt has given the monitor's reason: then it leaves the
hooks alone, as if there had been an agent. -/
theorem alone_ends_by_reason (halone : p.role.isSupervised = false) {worker : Worker} {o : σ}
    {ms : List (Move σ)} (h : (p.start worker o).moves p ms = some s)
    (hbooted : s.stage.isBooted = true) :
    .monitor ∉ callers p (p.start worker o) ms ∧
    s.worker.gate.suppressed = worker.gate.suppressed ∧
    (s.interrupt.raised = true → ∀ ms' s', s.moves p ms' = some s' →
      (s'.ending? = none → ∃ m, m.isTurn = true ∧ (s'.move p m).isSome = true) ∧
      ms'.countP Move.isTurn ≤ s.rank 0 + 2 * ms'.countP Move.isRegistration) ∧
    ∀ ending, s.ending? = some ending → EndsAlone p (p.start worker o) ms s ending := by
  refine ⟨monitor_silent halone h, gate_alone halone h, ?_, ?_⟩
  · intro hraised ms' s' h'
    have hunder : s.UnderWay := ⟨orderly_run h, hbooted, fun _ => hraised⟩
    have hunder' : s'.UnderWay := by
      refine State.moves_induction (motive := fun _ t => t.UnderWay) hunder ?_ h'
      intro _ _ _ _ _ hm ht
      exact ht.move hm
    have hwatch : ∀ w, p.watch = some w → w.attempts = 0 := by
      intro w hw
      rw [supervised_of_watch hw] at halone
      cases halone
    refine ⟨?_, Nat.le_of_add_left_le (turns_bounded hwatch hunder h')⟩
    exact turn_possible_alone (alone halone (State.moves_trans h h')) hunder'.raised
  · intro ending hending
    exact ends_alone halone h hbooted (ending_stage hending)

theorem alone_ends_by_reason_signal : ∃ s report hooks progress,
    (loneRun.start readyWorker ()).moves loneRun interruption = some s ∧
    s.ending? = some (.stopped .interrupted report) ∧
    Drained loneRun (loneRun.start readyWorker ()) interruption hooks ∧
    report = progress.report ∧
    Sweep.Swept readyWorker.calls loneRun.hookLimit hooks.reverse progress s.worker := by
  have hsound : readyWorker.Sound := (Worker.sound_fresh _).attach _ _
  have hstopped : ∃ s report, (loneRun.start readyWorker ()).moves loneRun interruption = some s ∧
      s.ending? = some (.stopped .interrupted report) := ⟨_, _, rfl, rfl⟩
  obtain ⟨s, report, hrun, hending⟩ := hstopped
  have hbooted : s.stage.isBooted = true := by
    rw [ending_stage hending]
    rfl
  obtain ⟨_, _, _, hends⟩ := alone_ends_by_reason rfl hrun hbooted
  obtain ⟨hooks, progress, hdrained, _, hreport, hswept⟩ :=
    (hends _ hending).swept report rfl hsound rfl
  exact ⟨s, report, hooks, progress, hrun, hending, hdrained, hreport, hswept⟩

/-! Somebody has the handle of the interrupt and gives the monitor's reason. -/

def openWorker : Worker :=
  (Worker.fresh (.ofStreams .unlimited .unlimited)).attach "cache" ⟨"cache", [], .succeed⟩

def disguise : List (Move Unit) := [.main, .main, .record "parent-lost", .raise, .main, .main]

/-- Nobody has lost an agent, and yet neither the services nor the cache are closed. -/
theorem orphaned_without_agent : ∃ s,
    (loneRun.start openWorker ()).moves loneRun disguise = some s ∧
    loneRun.role = .standalone ∧ s.ending? = some .orphaned ∧ s.worker.calls = [] ∧
    s.worker.registry.hooks.map Hook.name = ["cache", "service:db", "service:web"] ∧
    s.worker.gate.suppressed = false :=
  ⟨_, rfl, rfl, by decide +kernel, by decide +kernel, by decide +kernel, by decide +kernel⟩

end Run

end SupervisedWorker
