import SupervisedWorker.Proofs.Run.Ending
import SupervisedWorker.Proofs.Run.Writes

/-!
# The console of a run whose agent is dead

The monitor suppresses the gate when it finds the agent dead. Whoever has looked at the gate before
still writes, and nobody else does. The stop command suppresses the same gate for its sweep, and
resumes it afterwards without asking who else had suppressed it.

Results:
1. `Mute.step`, `Mute.resume`, `Parting.step`: after the monitor has suppressed the gate, nothing new
   passes until the main task resumes the gate on the stop command, and then the gate stays open.
2. `muted_until_resumed`: the same about whole runs and their endings.
3. `muting_undone`: that this happens.
-/

namespace SupervisedWorker

namespace Run

variable {σ : Type} {p : Plan σ} {show? : EntryLine} {s s' : State σ}

/-! ## 1. The two tasks and the gate -/

/-- Only the main task resumes the gate, after its sweep. -/
theorem resuming_of_gating {m : Move σ} (h : s.gating m = some false) :
    m = .main ∧ ∃ report, s.stage = .resuming report := by
  cases m with
  | main =>
    simp only [State.gating] at h
    cases hs : s.stage with
    | resuming report => exact ⟨rfl, report, rfl⟩
    | quieting | _ =>
      rw [hs] at h
      cases h
  | guardian =>
    simp only [State.gating] at h
    split at h <;> cases h
  | _ => cases h

/-- Whether the monitor has suppressed the gate already, or never will. -/
def Guardian.isSpent : Guardian → Bool
  | .warning | .recording | .raising | .done => true
  | _ => false

/-- The monitor suppresses the gate once at most. -/
theorem spent_move {m : Move σ} (h : s.move p m = some s') (hbooted : s.stage.isBooted = true)
    (hs : s.guardian.isSpent = true) : s'.guardian.isSpent = true := by
  obtain rfl | hsame | ⟨hbooting, _⟩ := guardian_cases h
  · obtain ⟨_, _, hway⟩ := guardianStep_way h
    cases hg : s.guardian with
    | warning | recording | raising =>
      rw [hg] at hway
      rw [hway]
      rfl
    | done =>
      rw [hg] at hway
      cases hway
    | absent | watching | muting =>
      rw [hg] at hs
      cases hs
  · rw [hsame, hs]
  · rw [hbooting] at hbooted
    cases hbooted

/-- Before the boot is over there is no monitor. -/
theorem absent_move {m : Move σ} (h : s.move p m = some s')
    (hs : s.stage.isBooted = false → s.guardian = .absent) (hs' : s'.stage.isBooted = false) :
    s'.guardian = .absent := by
  have hearly : s.stage.isBooted = false := by
    cases hbooted : s.stage.isBooted with
    | false => rfl
    | true =>
      rw [((move_passage h).isBooted hbooted).1] at hs'
      cases hs'
  have habsent := hs hearly
  obtain rfl | hsame | ⟨_, _, hnext⟩ := guardian_cases h
  · have hway := (guardianStep_way h).2.2
    rw [habsent] at hway
    exact hway.elim
  · exact hsame.trans habsent
  · rw [hnext] at hs'
    cases hs'

/-- Whether the main task has resumed the gate after its sweep. -/
def Stage.isParting : Stage → Bool
  | .reporting .stopCommand _ | .signing _ | .leaving _
  | .finished (.stopped .stopCommand _) => true
  | _ => false

/-- From there on the main task leads to the end, and moves the gate no more. -/
theorem Passage.isParting {m : Move σ} (h : Passage p s m s') (hs : s.stage.isParting = true) :
    s'.stage.isParting = true := by
  cases h with
  | elsewhere _ hsame => rw [hsame, hs]
  | @reported trigger _ _ hs₀ hnext =>
    rw [hs₀] at hs
    cases trigger with
    | stopCommand =>
      rw [hnext]
      rfl
    | interrupted => cases hs
  | signed hs₀ hnext | left hs₀ hnext =>
    rw [hnext]
    rfl
  | joined _ hs₀ =>
    rw [hs₀] at hs
    cases hs
  | begun hs₀ | answered hs₀ | opened hs₀ | booted hs₀ | failed hs₀ | interrupted hs₀ | roused hs₀
  | turned hs₀ | woken hs₀ | found hs₀ | missed hs₀ | consumed hs₀ | failedOnce hs₀ | released hs₀
  | lingered hs₀ | recorded hs₀ | raised hs₀ | quieted hs₀ | drained hs₀ | swept hs₀
  | sweeping hs₀ | resumed hs₀ =>
    rw [hs₀] at hs
    cases hs

theorem gating_parting {m : Move σ} (hs : s.stage.isParting = true)
    (hspent : s.guardian.isSpent = true) : s.gating m = none := by
  cases m with
  | main =>
    simp only [State.gating]
    cases hstage : s.stage with
    | quieting | resuming =>
      rw [hstage] at hs
      cases hs
    | _ => rfl
  | guardian =>
    simp only [State.gating]
    cases hg : s.guardian with
    | muting =>
      rw [hg] at hspent
      cases hspent
    | _ => rfl
  | _ => rfl

namespace Traffic

variable {x x' y : Traffic σ} {m : Move σ}

theorem Happens.isBooted (h : Happens p show? x m y) (hs : x.run.stage.isBooted = true) :
    y.run.stage.isBooted = true := by
  obtain hsame | ⟨_, hpassage⟩ := h.passage
  · rwa [hsame]
  · exact (hpassage.isBooted hs).1

theorem Happens.isSpent (h : Happens p show? x m y) (hbooted : x.run.stage.isBooted = true)
    (hs : x.run.guardian.isSpent = true) : y.run.guardian.isSpent = true := by
  obtain hsame | ⟨_, _, hmove⟩ := h.guardian
  · rwa [hsame]
  · exact spent_move hmove hbooted hs

/-- The run is in order, and has no monitor before the boot is over. -/
structure Founded (x : Traffic σ) : Prop where
  sealing : x.run.Sealing
  absent : x.run.stage.isBooted = false → x.run.guardian = .absent

theorem Founded.step (hx : x.Founded) (h : x.move p show? m = some y) : y.Founded := by
  have hhappens := happens_of_move h
  refine ⟨hhappens.sealing hx.sealing, fun hearly => ?_⟩
  obtain hsame | ⟨_, _, hmove⟩ := hhappens.guardian
  · refine hsame.trans (hx.absent ?_)
    cases hbooted : x.run.stage.isBooted with
    | false => rfl
    | true =>
      rw [hhappens.isBooted hbooted] at hearly
      cases hearly
  · exact absent_move hmove hx.absent hearly

/-- Whether a move resumes the gate. -/
def isResumption (x : Traffic σ) : Move σ → Bool
  | .step .main =>
    match x.run.stage with
    | .resuming _ => true
    | _ => false
  | _ => false

/-- The monitor has suppressed the gate, and nobody has resumed it since. -/
structure Mute (x : Traffic σ) : Prop where
  sealing : x.run.Sealing
  suppressed : x.run.worker.gate.suppressed = true
  booted : x.run.stage.isBooted = true
  spent : x.run.guardian.isSpent = true

/-- The main task has resumed the gate after the monitor has suppressed it, and is on its way to the
end. -/
structure Parting (x : Traffic σ) : Prop where
  sealing : x.run.Sealing
  isOpen : x.run.worker.gate.suppressed = false
  booted : x.run.stage.isBooted = true
  spent : x.run.guardian.isSpent = true
  parting : x.run.stage.isParting = true

/-- Until the gate is resumed, nothing new passes it. -/
theorem Mute.step (hx : x.Mute) (h : x.move p show? m = some y) (hm : x.isResumption m = false) :
    y.Mute ∧ x.Drains p y := by
  have hhappens := happens_of_move h
  have hdrains : x.Drains p y := by
    refine hhappens.drains hx.sealing hx.suppressed fun m' heq hgating => ?_
    obtain ⟨rfl, report, hs⟩ := resuming_of_gating hgating
    rw [heq, isResumption, hs] at hm
    cases hm
  exact ⟨⟨hhappens.sealing hx.sealing, hdrains.suppressed.trans hx.suppressed,
    hhappens.isBooted hx.booted, hhappens.isSpent hx.booted hx.spent⟩, hdrains⟩

/-- The main task resumes the gate on its way to the report. -/
theorem Mute.resume (hx : x.Mute) (h : x.move p show? m = some y) (hm : x.isResumption m = true) :
    y.Parting := by
  have hhappens := happens_of_move h
  obtain ⟨rfl, report, hs⟩ : m = .step .main ∧ ∃ report, x.run.stage = .resuming report := by
    unfold isResumption at hm
    split at hm
    · split at hm
      · exact ⟨rfl, _, ‹_›⟩
      · cases hm
    · cases hm
  have hsealing := hhappens.sealing hx.sealing
  have hbooted := hhappens.isBooted hx.booted
  have hspent := hhappens.isSpent hx.booted hx.spent
  cases hhappens with
  | finished _ hspeech =>
    rw [hs] at hspeech
    cases hspeech
  | ran _ hmove =>
    have hposition := suppressed_move hmove hx.sealing
    rw [State.gating, hs] at hposition
    refine ⟨hsealing, hposition, hbooted, hspent, ?_⟩
    rw [State.move, mainStep, hs] at hmove
    cases hmove
    rfl

/-- From then on the gate stays open. -/
theorem Parting.step (hx : x.Parting) (h : x.move p show? m = some y) : y.Parting := by
  have hhappens := happens_of_move h
  refine ⟨hhappens.sealing hx.sealing, ?_, hhappens.isBooted hx.booted,
    hhappens.isSpent hx.booted hx.spent, ?_⟩
  · cases hhappens with
    | ran _ hmove =>
      have hposition := suppressed_move hmove hx.sealing
      rw [gating_parting hx.parting hx.spent] at hposition
      exact hposition.trans hx.isOpen
    | finished => exact (settleLine_prints ..).position.trans hx.isOpen
    | looked | passed => exact hx.isOpen
    | spoke | landed => exact (Gate.suppressed_putLine ..).trans hx.isOpen
  · obtain hsame | ⟨_, hpassage⟩ := hhappens.passage
    · rw [hsame, hx.parting]
    · exact hpassage.isParting hx.parting

/-! ## 2. Whole runs -/

/-- What every move keeps holds after any moves. -/
theorem moves_keep {P : Traffic σ → Prop}
    (hstep : ∀ {x m y}, P x → x.move p show? m = some y → P y) {ms : List (Move σ)}
    (h : x.moves p show? ms = some y) (hx : P x) : P y := by
  induction ms generalizing x with
  | nil =>
    cases h
    exact hx
  | cons m ms ih =>
    obtain ⟨z, hz, hrest⟩ := Option.bind_eq_some_iff.mp h
    exact ih hrest (hstep hx hz)

theorem founded {w : Worker} {o : σ} {ms : List (Move σ)}
    (h : (start (p.start w o)).moves p show? ms = some x) : x.Founded :=
  moves_keep Founded.step h ⟨sealing_start p w o, fun _ => rfl⟩

/-- Whether one of several moves resumes the gate. -/
def resumes (p : Plan σ) (show? : EntryLine) : Traffic σ → List (Move σ) → Bool
  | _, [] => false
  | x, m :: ms =>
    x.isResumption m ||
      match x.move p show? m with
      | some y => y.resumes p show? ms
      | none => false

/-- Nothing new passes the gate until it is resumed, and then it stays open. -/
theorem Mute.moves (hx : x.Mute) {ms : List (Move σ)} (h : x.moves p show? ms = some y) :
    if x.resumes p show? ms then y.Parting else y.Mute ∧ x.Drains p y := by
  induction ms generalizing x with
  | nil =>
    cases h
    exact ⟨hx, .refl p _⟩
  | cons m ms ih =>
    obtain ⟨z, hz, hrest⟩ := Option.bind_eq_some_iff.mp h
    rw [resumes, hz]
    cases hm : x.isResumption m with
    | true => exact moves_keep Parting.step hrest (hx.resume hz hm)
    | false =>
      obtain ⟨hmute, hdrains⟩ := hx.step hz hm
      have hlater := ih hmute hrest
      show if z.resumes p show? ms then y.Parting else y.Mute ∧ x.Drains p y
      split at hlater
      · rwa [if_pos ‹_›]
      · rw [if_neg ‹_›]
        exact ⟨hlater.1, hdrains.trans hlater.2⟩

end Traffic

/-- Once the monitor has found the agent dead and suppressed the gate, nothing new passes the gate
until the main task resumes it after its sweep: the streams receive some of the lines that the gate
had let pass before, and nothing else. The main task resumes the gate only on the stop command, and
then it stays open to the end; whatever else a run ends on, the gate stays suppressed. -/
theorem muted_until_resumed {w : Worker} {o : σ} {before after : List (Traffic.Move σ)}
    {x x' y : Traffic σ} (hbefore : (Traffic.start (p.start w o)).moves p show? before = some x)
    (hmuting : x.run.guardian = .muting) (hmute : x.move p show? (.step .guardian) = some x')
    (h : x'.moves p show? after = some y) :
    x'.run.worker.gate.suppressed = true ∧
    (x'.resumes p show? after = false → x'.Drains p y) ∧
    (y.run.worker.gate.suppressed = true ↔ x'.resumes p show? after = false) ∧
    (∀ ending, y.run.ending? = some ending → (∀ report, ending ≠ .stopped .stopCommand report) →
      y.run.worker.gate.suppressed = true ∧ x'.Drains p y) := by
  obtain ⟨hsealing, habsent⟩ := Traffic.founded hbefore
  have hbooted : x.run.stage.isBooted = true := by
    by_contra hearly
    rw [habsent (Bool.eq_false_iff.mpr hearly)] at hmuting
    cases hmuting
  have hhappens := Traffic.happens_of_move hmute
  have hmuted : x'.Mute := by
    refine ⟨hhappens.sealing hsealing, ?_, hhappens.isBooted hbooted, ?_⟩ <;>
      cases hhappens with | ran _ hmove => ?_
    · have hgating : x.run.gating .guardian = some true := by rw [State.gating, hmuting]
      have hposition := suppressed_move hmove hsealing
      rw [hgating] at hposition
      exact hposition
    · have hway := (guardianStep_way hmove).2.2
      rw [hmuting] at hway
      exact (congrArg Guardian.isSpent hway).trans rfl
  have hafter := hmuted.moves h
  refine ⟨hmuted.suppressed, ?_⟩
  cases hresumes : x'.resumes p show? after with
  | true =>
    rw [hresumes] at hafter
    have hparting : y.Parting := hafter
    refine ⟨fun hnever => ?_, ⟨fun hstill => ?_, fun hnever => ?_⟩,
      fun ending hending hother => ?_⟩
    · cases hnever
    · rw [hparting.isOpen] at hstill
      cases hstill
    · cases hnever
    · have hstage := hparting.parting
      rw [ending_stage hending] at hstage
      cases ending with
      | stopped trigger report =>
        cases trigger with
        | stopCommand => exact absurd rfl (hother report)
        | interrupted => cases hstage
      | orphaned | bootFailed failure => cases hstage
  | false =>
    rw [hresumes] at hafter
    obtain ⟨hmute', hdrains⟩ : y.Mute ∧ x'.Drains p y := hafter
    exact ⟨fun _ => hdrains, ⟨fun _ => rfl, fun _ => hmute'.suppressed⟩,
      fun _ _ _ => ⟨hmute'.suppressed, hdrains⟩⟩

/-! The monitor finds the agent dead while the main task waits, and while the line of somebody else
is under way. Then either the interrupt reaches the main task, or a marker does that somebody has
left behind. -/

def foundDead : List (Traffic.Move Bool) :=
  [Traffic.Move.step .main, .step .main] ++ List.replicate 4 (Traffic.Move.step .guardian)

def giveIn : List (Traffic.Move Bool) :=
  [Traffic.Move.land 0] ++ List.replicate 3 (Traffic.Move.step .guardian) ++
    List.replicate 2 (Traffic.Move.step .main)

def stopAnyway : List (Traffic.Move Bool) :=
  [Traffic.Move.step (.outside fun _ => true)] ++ List.replicate 3 (Traffic.Move.step .main) ++
    List.replicate 3 (Traffic.Move.step .guardian) ++ List.replicate 11 (Traffic.Move.step .main)

def quietWorker : Worker := .fresh (.ofStreams .unlimited .unlimited)

theorem muted_until_resumed_orphaned :
    let x₀ := Traffic.start (watchedRun.start quietWorker false)
    ∃ x x' y, x₀.moves watchedRun messages (foundDead ++ [.pass .out "late"]) = some x ∧
      x.run.guardian = .muting ∧ x.move watchedRun messages (.step .guardian) = some x' ∧
      x'.moves watchedRun messages giveIn = some y ∧ y.run.ending? = some .orphaned ∧
      y.run.worker.gate.suppressed = true ∧ x'.Drains watchedRun y := by
  intro x₀
  have hrun : ((x₀.moves watchedRun messages (foundDead ++ [.pass .out "late"])).bind fun x =>
      (x.move watchedRun messages (.step .guardian)).bind fun x' =>
        (x'.moves watchedRun messages giveIn).bind fun y =>
          some (x.run.guardian, y.run.ending?)) = some (.muting, some .orphaned) := by
    decide +kernel
  obtain ⟨x, hbefore, hrun⟩ := Option.bind_eq_some_iff.mp hrun
  obtain ⟨x', hmute, hrun⟩ := Option.bind_eq_some_iff.mp hrun
  obtain ⟨y, hafter, hrun⟩ := Option.bind_eq_some_iff.mp hrun
  obtain ⟨hmuting, hending⟩ := Prod.mk.inj (Option.some.inj hrun)
  have hmuted := muted_until_resumed hbefore hmuting hmute hafter
  exact ⟨x, x', y, hbefore, hmuting, hmute, hafter, hending,
    hmuted.2.2.2 .orphaned hending nofun⟩

/-- A marker that is found after the monitor has suppressed the gate leads to a sweep, which opens
the gate at its end, also if nothing was under way. -/
theorem muting_undone :
    let x₀ := Traffic.start (watchedRun.start quietWorker false)
    ∃ x x' y, x₀.moves watchedRun messages foundDead = some x ∧ x.run.guardian = .muting ∧
      x.move watchedRun messages (.step .guardian) = some x' ∧ x'.underWay watchedRun = [] ∧
      x'.moves watchedRun messages stopAnyway = some y ∧ y.run.ending?.isSome = true ∧
      y.run.worker.gate.suppressed = false ∧
      y.run.worker.gate.out.received ≠ x'.run.worker.gate.out.received := by
  intro x₀
  have hrun : ((x₀.moves watchedRun messages foundDead).bind fun x =>
      (x.move watchedRun messages (.step .guardian)).bind fun x' =>
        (x'.moves watchedRun messages stopAnyway).bind fun y =>
          some (x.run.guardian, x'.underWay watchedRun, y.run.ending?.isSome,
            y.run.worker.gate.suppressed,
            decide (y.run.worker.gate.out.received ≠ x'.run.worker.gate.out.received))) =
      some (.muting, [], true, false, true) := by
    decide +kernel
  obtain ⟨x, hbefore, hrun⟩ := Option.bind_eq_some_iff.mp hrun
  obtain ⟨x', hmute, hrun⟩ := Option.bind_eq_some_iff.mp hrun
  obtain ⟨y, hafter, hrun⟩ := Option.bind_eq_some_iff.mp hrun
  obtain ⟨hmuting, hrun⟩ := Prod.mk.inj (Option.some.inj hrun)
  obtain ⟨hunderWay, hrun⟩ := Prod.mk.inj hrun
  obtain ⟨hending, hrun⟩ := Prod.mk.inj hrun
  obtain ⟨hopen, hbytes⟩ := Prod.mk.inj hrun
  exact ⟨x, x', y, hbefore, hmuting, hmute, hunderWay, hafter, hending, hopen,
    of_decide_eq_true hbytes⟩

end Run

end SupervisedWorker
