import SupervisedWorker.Proofs.Run.Calls
import SupervisedWorker.Proofs.Run.Muting

/-!
# What the agent reads

A run that nothing disturbs talks to its agent on the console: who it is, what became of its hooks,
and, if the agent has told it to stop, that it is done. Hooks may print as well, and are heard only
where the agent has not told the run to stop.

Results:
1. `calm_move`: as long as the agent is not found dead, the monitor leaves the gate alone.
2. `spoken`: what has been heard of a run, at every stage.
3. `console_protocol`: what the streams have received when a run has stopped.
-/

namespace SupervisedWorker

namespace Run

open Worker

variable {σ : Type} {p : Plan σ} {s s' : State σ}

/-! ## 1. A monitor that finds its agent alive -/

/-- The monitor asks about the agent, and is told that it is dead. -/
def Event.FindsDead (p : Plan σ) (e : Event σ) : Prop :=
  e.move = .guardian ∧ ∃ last i, e.before.guardian = .watching (.kept last) ∧
    p.role.identity? = some i ∧ (AgentProbe.check p.files p.layout i e.before.outside).1 = .dead

/-- Whether the monitor has not found the agent dead. -/
def Guardian.isCalm : Guardian → Bool
  | .absent | .done => true
  | .watching phase => phase != .ended .parentLost
  | _ => false

/-- The monitor ends with its agent only if it is told that the agent is dead. -/
theorem monitor_finds_dead {phase : Monitor.Phase} (hcalm : phase ≠ .ended .parentLost)
    (h : (p.monitor.step (monitorSurroundings p) phase s).1 = .ended .parentLost) :
    ∃ last i, phase = .kept last ∧ p.role.identity? = some i ∧
      (AgentProbe.check p.files p.layout i s.outside).1 = .dead := by
  cases phase with
  | starting => cases h
  | sampled last =>
    unfold Monitor.step at h
    dsimp only at h
    split at h <;> cases h
  | asleep last =>
    unfold Monitor.step Monitor.sampleRound at h
    dsimp only at h
    split at h <;> cases h
  | kept last =>
    unfold Monitor.step monitorSurroundings at h
    dsimp only at h
    cases hi : p.role.identity? with
    | none =>
      rw [hi] at h
      cases h
    | some i =>
      refine ⟨last, i, rfl, rfl, ?_⟩
      rw [hi] at h
      simp only [Option.map_some, askAgent] at h
      rcases hlife : AgentProbe.check p.files p.layout i s.outside with ⟨_ | _, o⟩
      · rw [hlife] at h
        cases h
      · rfl
  | checked last =>
    unfold Monitor.step at h
    dsimp only at h
    split at h <;> cases h
  | ended exit => exact absurd h hcalm

theorem calm_move {m : Move σ} (h : s.move p m = some s')
    (halive : ¬Event.FindsDead p ⟨s, m, s'⟩) (hs : s.guardian.isCalm = true) :
    s'.guardian.isCalm = true := by
  obtain rfl | hsame | ⟨_, hwatching, _⟩ := guardian_cases h
  · obtain ⟨_, _, hway⟩ := guardianStep_way h
    cases hg : s.guardian with
    | watching phase =>
      rw [hg] at hway hs
      have hphase : phase ≠ .ended .parentLost := by simpa [Guardian.isCalm] using hs
      rw [hway]
      cases hnext : (p.monitor.step (monitorSurroundings p) phase s).1 with
      | ended exit =>
        cases exit with
        | cancelled => rfl
        | parentLost =>
          obtain ⟨last, i, rfl, hi, hdead⟩ := monitor_finds_dead hphase hnext
          exact absurd ⟨rfl, last, i, hg, hi, hdead⟩ halive
      | _ => rfl
    | absent | done =>
      rw [hg] at hway
      cases hway
    | muting | warning | recording | raising =>
      rw [hg] at hs
      cases hs
  · rw [hsame, hs]
  · rw [hwatching]
    rfl

/-! ## 2. What is heard -/

/-- The lines that hooks print, in the order of the hooks. -/
def hookLines (hooks : List (Hook HookScript)) : List String :=
  hooks.flatMap fun h => h.action.lines

/-- The line that tells the agent which process this is, for a process that has an agent. -/
def introduction (p : Plan σ) : List String :=
  if p.role.isSupervised then [openingLine p.processId] else []

/-- The parts of a run, by what has been heard and where the gate stands. -/
inductive Part
  | opening
  | introduced
  /-- The gate is suppressed for the sweep. -/
  | quiet
  /-- The gate is open during the sweep. -/
  | hooks
  /-- The gate is resumed after the sweep. -/
  | answering
  | signing (report : Report)
  | signed (report : Report)
  | closed (report : Report)
deriving DecidableEq, Repr

/-- The part to which a stage belongs. -/
def Stage.part : Stage → Part
  | .opening => .opening
  | .draining .stopCommand | .sweeping .stopCommand _ | .resuming _ => .quiet
  | .sweeping .interrupted _ | .reporting .interrupted _ => .hooks
  | .reporting .stopCommand _ => .answering
  | .signing report => .signing report
  | .leaving report | .finished (.stopped .stopCommand report) => .signed report
  | .finished (.stopped .interrupted report) => .closed report
  | _ => .introduced

/-- The ways from one part of a run to the next, with the lines for the output and for the error
output, the hooks that are called, and where the gate is put. -/
inductive Speech (p : Plan σ) : Part → List String → List String → List (Hook HookScript) →
    Option Bool → Part → Prop
  | stay {part : Part} : Speech p part [] [] [] none part
  | introduce : Speech p .opening (introduction p) [] [] none .introduced
  | mute : Speech p .introduced [] [] [] (some true) .quiet
  | callQuietly (hooks : List (Hook HookScript)) :
      Speech p .quiet (hookLines hooks) (hookLines hooks) hooks none .quiet
  | unmute : Speech p .quiet [] [] [] (some false) .answering
  | answer (report : Report) :
      Speech p .answering [closingLines p.clock report] [] [] none (.signing report)
  | sign (report : Report) :
      Speech p (.signing report) [p.settings.shutdown.completionToken] [] [] none (.signed report)
  | drain : Speech p .introduced [] [] [] none .hooks
  | call (hooks : List (Hook HookScript)) :
      Speech p .hooks (hookLines hooks) (hookLines hooks) hooks none .hooks
  | close (report : Report) :
      Speech p .hooks [closingLines p.clock report] [] [] none (.closed report)

/-- What a hook prints that the sweep does not wait for any more. -/
def State.strays (s : State σ) : Move σ → List String
  | .straggle line => [line]
  | .begin hook _ => s.sweep?.elim [] fun progress =>
    if s.stage.isSweeping && decide (progress.records.length ≤ hook) then []
    else progress.linesOf hook
  | _ => []

/-- The others neither print nor call hooks nor move the gate, where the monitor is calm and no hook
prints for which the sweep does not wait. -/
theorem others_silent {m : Move σ} (hother : m.isTurn = false) (hbegin : m.isBegin = false)
    (hquiet : s.strays m = []) (hcalm : m = .guardian → s.guardian.isCalm = true) :
    s.toOut p m = [] ∧ s.toErr m = [] ∧ s.runs p m = [] ∧ s.gating m = none := by
  cases m with
  | main | giveUp => cases hother
  | begin => cases hbegin
  | straggle line => cases hquiet
  | guardian =>
    refine ⟨rfl, rfl, rfl, ?_⟩
    simp only [State.gating]
    split
    · rename_i hg
      rw [hg] at hcalm
      cases hcalm rfl
    · rfl
  | _ => exact ⟨rfl, rfl, rfl, rfl⟩

/-- A thread that starts on a hook says what the hook says. -/
theorem begin_speech {hook : Nat} {delay : Duration} (h : s.move p (.begin hook delay) = some s')
    (hquiet : s.strays (.begin hook delay) = []) :
    Speech p s.stage.part (s.toOut p (.begin hook delay)) (s.toErr (.begin hook delay))
      (s.runs p (.begin hook delay)) none s'.stage.part := by
  obtain ⟨progress, progress', worker, hsweep, hb, rfl⟩ := begin_keeps h
  have hout : s.toOut p (.begin hook delay) = progress.linesOf hook := by
    rw [State.toOut, hsweep]
    rfl
  have herr : s.toErr (.begin hook delay) = progress.linesOf hook := by
    rw [State.toErr, hsweep]
    rfl
  rw [hout, herr]
  simp only [State.strays, hsweep, Option.elim_some] at hquiet
  rcases State.sweep?_cases hsweep with ⟨trigger, hs⟩ | ⟨hs, _⟩
  · have hstage : ({ s with worker }.keepSweep progress').stage = .sweeping trigger progress' := by
      rw [State.keepSweep_of_sweeping (s := { s with worker }) hs]
      rfl
    rw [hstage, hs]
    obtain ⟨w, next, hjob, _, ⟨hlate, _⟩ | ⟨hwait, hdelay, _⟩⟩ := Sweep.Progress.begin_cases hb
    · -- The sweep does not wait for this hook any more, so it prints nothing.
      have hruns : s.runs p (.begin hook delay) = [] := by
        simp [State.runs, State.calls, hs, Nat.not_le.mpr hlate]
      have hlines : progress.linesOf hook = [] := by
        simpa [hs, Stage.isSweeping, Nat.not_le.mpr hlate] using hquiet
      rw [hruns, hlines]
      cases trigger <;> exact .stay
    · have hruns : s.runs p (.begin hook delay) = [next] := by
        simp [State.runs, State.calls, hs, hwait, hdelay, hjob]
      have hlines : progress.linesOf hook = hookLines [next] := by
        simp [Sweep.Progress.linesOf, hjob, hookLines]
      rw [hruns, hlines]
      cases trigger
      · exact .callQuietly _
      · exact .call _
  · have hstage : ({ s with worker }.keepSweep progress').stage = s.stage := by
      rw [State.keepSweep_of_left (s := { s with worker }) hs]
    have hruns : s.runs p (.begin hook delay) = [] := by
      rw [State.runs, calls_eq_nil hs]
      rfl
    have hlines : progress.linesOf hook = [] := by simpa [hs] using hquiet
    rw [hstage, hruns, hlines]
    exact .stay

theorem move_speech {m : Move σ} (h : s.move p m = some s') (hquiet : s.strays m = [])
    (hcalm : m = .guardian → s.guardian.isCalm = true) :
    Speech p s.stage.part (s.toOut p m) (s.toErr m) (s.runs p m) (s.gating m) s'.stage.part := by
  by_cases hbegin : m.isBegin = true
  · cases m with
    | begin hook delay => exact begin_speech h hquiet
    | _ => cases hbegin
  cases move_passage h with
  | elsewhere hother hsame =>
    obtain ⟨hout, herr, hruns, hgating⟩ :=
      others_silent (p := p) hother (Bool.eq_false_iff.mpr hbegin) hquiet hcalm
    rw [hsame, hout, herr, hruns, hgating]
    exact .stay
  | begun => exact absurd rfl hbegin
  | @answered trigger _ _ _ _ _ hs _ hnext =>
    rw [hs, hnext]
    cases trigger <;> exact .stay
  | opened hs hnext =>
    simp only [State.toOut, State.toErr, State.gating, hs, hnext]
    exact .introduce
  | @missed _ last _ hs _ _ hnext | @consumed last _ _ _ hs hnext =>
    simp only [State.toOut, State.toErr, State.gating, hs, hnext]
    cases last <;> exact .stay
  | @released trigger _ hs hnext =>
    simp only [State.toOut, State.toErr, State.gating, hs, hnext]
    cases trigger with
    | stopCommand => exact .stay
    | interrupted =>
      obtain hstage | ⟨_, hstage⟩ | ⟨_, hstage⟩ := afterWatch_cases p s.interrupt.reason <;>
        rw [hstage] <;> exact .stay
  | @joined trigger _ _ hturn hs hnext =>
    have hsilent : s.toOut p m = [] ∧ s.toErr m = [] ∧ s.runs p m = [] ∧ s.gating m = none := by
      cases m <;> simp_all [State.toOut, State.toErr, State.runs, State.calls, State.gating,
        Move.isTurn]
    rw [hs, hnext, hsilent.1, hsilent.2.1, hsilent.2.2.1, hsilent.2.2.2]
    cases trigger <;> exact .stay
  | quieted hs hnext =>
    simp only [State.toOut, State.toErr, State.gating, hs, hnext]
    exact .mute
  | @drained trigger _ hs hnext =>
    simp only [State.toOut, State.toErr, State.gating, hs, hnext]
    cases trigger
    · exact .stay
    · exact .drain
  | @swept trigger _ _ hs _ hnext | @sweeping trigger _ _ hs _ hnext =>
    simp only [State.toOut, State.toErr, State.gating, hs, hnext]
    cases trigger <;> exact .stay
  | resumed hs hnext =>
    simp only [State.toOut, State.toErr, State.gating, hs, hnext]
    exact .unmute
  | @reported trigger report _ hs hnext =>
    simp only [State.toOut, State.toErr, State.gating, hs, hnext]
    cases trigger
    · exact .answer report
    · exact .close report
  | @signed report _ hs hnext =>
    simp only [State.toOut, State.toErr, State.gating, hs, hnext]
    exact .sign report
  | booted hs _ hnext | failed hs _ hnext | interrupted hs _ hnext | roused hs _ hnext
  | turned hs _ _ hnext | woken hs _ hnext | found hs _ _ hnext | failedOnce hs hnext
  | lingered hs hnext | recorded hs hnext | raised hs hnext | left hs hnext =>
    simp only [State.toOut, State.toErr, State.gating, hs, hnext]
    exact .stay

/-- What has been heard on either stream by a part, and which hooks were called. -/
inductive Heard (p : Plan σ) : Part → List String → List String → List (Hook HookScript) → Prop
  | opening : Heard p .opening [] [] []
  | introduced : Heard p .introduced (introduction p) [] []
  | quiet (hooks : List (Hook HookScript)) : Heard p .quiet (introduction p) [] hooks
  | answering (hooks : List (Hook HookScript)) : Heard p .answering (introduction p) [] hooks
  | signing (report : Report) (hooks : List (Hook HookScript)) :
      Heard p (.signing report) (introduction p ++ [closingLines p.clock report]) [] hooks
  | signed (report : Report) (hooks : List (Hook HookScript)) :
      Heard p (.signed report) (introduction p ++ [closingLines p.clock report] ++
        [p.settings.shutdown.completionToken]) [] hooks
  | hooks (hooks : List (Hook HookScript)) :
      Heard p .hooks (introduction p ++ hookLines hooks) (hookLines hooks) hooks
  | closed (report : Report) (hooks : List (Hook HookScript)) :
      Heard p (.closed report) (introduction p ++ hookLines hooks ++ [closingLines p.clock report])
        (hookLines hooks) hooks

/-- Whether the main task has suppressed the gate for its sweep. -/
def Part.isQuiet : Part → Bool
  | .quiet => true
  | _ => false

theorem hookLines_append (hooks hooks' : List (Hook HookScript)) :
    hookLines (hooks ++ hooks') = hookLines hooks ++ hookLines hooks' := List.flatMap_append

theorem Speech.isQuiet {part part' : Part} {out err : List String} {hooks : List (Hook HookScript)}
    {gating : Option Bool} (h : Speech p part out err hooks gating part') :
    part'.isQuiet = gating.getD part.isQuiet := by
  cases h <;> rfl

/-- On its way a run adds to what is heard what it prints, unless the gate is suppressed. -/
theorem Heard.speech {part part' : Part} {out err out' err' : List String}
    {hooks hooks' : List (Hook HookScript)} {gating : Option Bool}
    (h : Heard p part out err hooks) (hspeech : Speech p part out' err' hooks' gating part') :
    Heard p part' (out ++ if part.isQuiet then [] else out')
      (err ++ if part.isQuiet then [] else err') (hooks ++ hooks') := by
  cases hspeech with
  | stay =>
    rw [ite_self, List.append_nil, List.append_nil, List.append_nil]
    exact h
  | introduce =>
    cases h
    exact .introduced
  | mute =>
    cases h
    rw [ite_self, List.append_nil]
    exact .quiet []
  | callQuietly hooks' =>
    cases h with
    | quiet hooks =>
      have hclosed : Part.quiet.isQuiet = true := rfl
      rw [if_pos hclosed, List.append_nil, List.append_nil]
      exact .quiet (hooks ++ hooks')
  | unmute =>
    cases h with
    | quiet hooks =>
      rw [ite_self, List.append_nil, List.append_nil, List.append_nil]
      exact .answering hooks
  | answer report =>
    cases h with
    | answering hooks =>
      rw [List.append_nil]
      exact .signing report hooks
  | sign report =>
    cases h with
    | signing _ hooks =>
      rw [List.append_nil]
      exact .signed report hooks
  | drain =>
    cases h
    exact .hooks []
  | call hooks' =>
    cases h with
    | hooks hooks =>
      have hcalled := Heard.hooks (p := p) (hooks ++ hooks')
      rw [hookLines_append, ← List.append_assoc] at hcalled
      exact hcalled
  | close report =>
    cases h with
    | hooks hooks =>
      rw [if_neg nofun, if_neg nofun, List.append_nil, List.append_nil]
      exact .closed report hooks

/-- What has been heard of a run, and where its gate stands. -/
structure Spoken (p : Plan σ) (s₀ : State σ) (ms : List (Move σ)) (s : State σ) : Prop where
  calm : s.guardian.isCalm = true
  gate : s.worker.gate.suppressed = s.stage.part.isQuiet
  heard : Heard p s.stage.part (collect p (State.heardOut p) s₀ ms)
    (collect p State.heardErr s₀ ms) (ran p s₀ ms)

/-- A run that nothing disturbs: the gate is open before it, the streams accept everything, the
agent is never found dead, and no hook prints for which the sweep does not wait. -/
structure Undisturbed (p : Plan σ) (s₀ : State σ) (ms : List (Move σ)) : Prop where
  isOpen : s₀.worker.gate.suppressed = false
  accepts : s₀.worker.gate.Accepts
  alive : ∀ e ∈ history p s₀ ms, ¬e.FindsDead p
  quiet : ∀ e ∈ history p s₀ ms, e.before.strays e.move = []

theorem spoken {w : Worker} {o : σ} {ms : List (Move σ)}
    (hquiet : Undisturbed p (p.start w o) ms) (h : (p.start w o).moves p ms = some s) :
    Spoken p (p.start w o) ms s := by
  obtain ⟨hopen, _, halive, hstray⟩ := hquiet
  revert halive hstray
  refine State.moves_induction (motive := fun ms s =>
    (∀ e ∈ history p (p.start w o) ms, ¬e.FindsDead p) →
      (∀ e ∈ history p (p.start w o) ms, e.before.strays e.move = []) →
      Spoken p (p.start w o) ms s) ?_ ?_ h
  · intro _ _
    exact ⟨rfl, hopen, .opening⟩
  · intro ms m s s' hs hm ih halive hstray
    rw [history_concat hs hm] at halive hstray
    obtain ⟨hcalm, hgate, hheard⟩ := ih (fun e he => halive e (List.mem_append_left _ he))
      (fun e he => hstray e (List.mem_append_left _ he))
    have hspeech := move_speech hm (hstray ⟨s, m, s'⟩ (by simp)) fun _ => hcalm
    refine ⟨calm_move hm (halive _ (by simp)) hcalm, ?_, ?_⟩
    · rw [suppressed_move hm (sealed_run hs), hgate, hspeech.isQuiet]
    · rw [ran, collect_concat _ hs, collect_concat _ hs, collect_concat _ hs]
      unfold State.heardOut State.heardErr
      rw [hgate]
      exact hheard.speech hspeech

/-! ## 3. Stopped runs -/

/-- Whether only a run that watches for its marker can be on a leg. -/
def Leg.isWatched : Leg → Bool
  | .removal _ | .release .stopCommand | .second | .closing .stopCommand => true
  | _ => false

theorem supervised_of_watch {w : StopWatch} (h : p.watch = some w) :
    p.role.isSupervised = true := by
  obtain ⟨i, hi, _⟩ := Option.map_eq_some_iff.mp h
  cases hrole : p.role with
  | standalone =>
    rw [hrole] at hi
    cases hi
  | supervised identity => rfl

theorem watched_move {m : Move σ} (h : s.move p m = some s')
    (hs : s.stage.leg.isWatched = true → p.role.isSupervised = true)
    (hs' : s'.stage.leg.isWatched = true) : p.role.isSupervised = true := by
  cases move_passage h with
  | elsewhere _ hsame =>
    rw [hsame] at hs'
    exact hs hs'
  | found _ hw | missed _ hw | turned _ _ hw => exact supervised_of_watch hw
  | consumed hstage =>
    rw [hstage] at hs
    exact hs rfl
  | @released trigger _ hstage hnext =>
    rw [hstage] at hs
    cases trigger with
    | stopCommand => exact hs rfl
    | interrupted =>
      obtain hstage | ⟨hsup, _⟩ | ⟨_, hstage⟩ := afterWatch_cases p s.interrupt.reason
      · rw [hnext, hstage] at hs'
        cases hs'
      · exact hsup
      · rw [hnext, hstage] at hs'
        cases hs'
  | @joined trigger _ _ _ hstage hnext | @swept trigger _ _ hstage _ hnext
  | @reported trigger _ _ hstage hnext =>
    rw [hstage] at hs
    rw [hnext] at hs'
    cases trigger <;> exact hs hs'
  | begun hstage _ hnext | answered hstage _ hnext | opened hstage hnext | booted hstage _ hnext
  | failed hstage _ hnext | interrupted hstage _ hnext | roused hstage _ hnext | woken hstage _ hnext
  | failedOnce hstage hnext | lingered hstage hnext | recorded hstage hnext | raised hstage hnext
  | quieted hstage hnext | drained hstage hnext | sweeping hstage _ hnext | resumed hstage hnext
  | signed hstage hnext | left hstage hnext =>
    rw [hstage] at hs
    rw [hnext] at hs'
    exact hs hs'

/-- Only a supervised run ends on the stop command. -/
theorem supervised_of_stopCommand {w : Worker} {o : σ} {ms : List (Move σ)} {report : Report}
    (h : (p.start w o).moves p ms = some s)
    (hs : s.stage = .finished (.stopped .stopCommand report)) : p.role.isSupervised = true := by
  refine State.moves_induction (motive := fun _ s =>
    s.stage.leg.isWatched = true → p.role.isSupervised = true) ?_ ?_ h (by rw [hs]; rfl)
  · intro hs
    cases hs
  · intro _ m s s' _ hm ih hs'
    exact watched_move hm ih hs'

theorem parting_moves {ms : List (Move σ)} (h : s.moves p ms = some s')
    (hs : s.stage.isParting = true) : s'.stage.isParting = true :=
  State.moves_induction (motive := fun _ s => s.stage.isParting = true) hs
    (fun _ _ _ _ _ hm hs => (move_passage hm).isParting hs) h

/-- A run that was interrupted never comes to print the completion token. -/
theorem unsigned_of_interrupted {ms : List (Move σ)} {s₀ : State σ} {report : Report}
    (h : s₀.moves p ms = some s) (hs : s.stage = .finished (.stopped .interrupted report)) :
    ∀ e ∈ history p s₀ ms, ∀ report, e.before.stage ≠ .signing report := by
  intro e he report hsigning
  obtain ⟨before, after, rfl, hbefore, hmove⟩ := (mem_history_iff h).mp he
  obtain ⟨t, ht, hrest⟩ := State.moves_append_some h
  rw [hbefore] at ht
  cases ht
  have hparting := parting_moves hrest (by rw [hsigning]; rfl)
  rw [hs] at hparting
  cases hparting

/-- What a hook prints succeeds, whether it is heard or not. -/
theorem acts_succeed {w : Worker} {o : σ} {ms : List (Move σ)} (ha : w.gate.Accepts)
    (h : (p.start w o).moves p ms = some s) {e : Event σ}
    (he : e ∈ history p (p.start w o) ms) {hook : Hook HookScript}
    (hruns : hook ∈ e.before.runs p e.move) :
    (HookScript.actAll (HookScript.sweepNested p.hookLimit 1) hook.action.acts
      e.before.worker).2.1 = none := by
  obtain ⟨before, after, rfl, hbefore, hmove⟩ := (mem_history_iff h).mp he
  have hsealed : e.before.worker.IsSealed := by
    refine (sealed_run hbefore).isSealed ?_
    obtain ⟨trigger, progress, hs⟩ : ∃ trigger progress,
        e.before.stage = .sweeping trigger progress := by
      refine Stage.isSweeping_iff.mp (Bool.not_eq_false _ ▸ fun hs => ?_)
      rw [State.runs, calls_eq_nil hs] at hruns
      cases hruns
    rw [hs]
    rfl
  exact (HookScript.actAll_prints hsealed p.hookLimit 1 hook.action.acts).2
    (received_eq ha hbefore).1

theorem utf8_append (s t : String) : Text.utf8 (s ++ t) = Text.utf8 s ++ Text.utf8 t := by
  rw [Text.utf8, String.toList_append, List.flatMap_append]
  rfl

/-- A line break in a line makes two lines of it. -/
theorem lineBytes_break (s t : String) :
    Gate.lineBytes (s ++ "\n" ++ t) = Gate.lineBytes s ++ Gate.lineBytes t := by
  unfold Gate.lineBytes
  rw [utf8_append, utf8_append, List.append_assoc]

theorem lineBytes_closingLines (clock : ClockText) (report : Report) :
    Gate.lineBytes (closingLines clock report) =
      Gate.linesBytes ["Exiting...", report.textBy clock] :=
  (lineBytes_break "Exiting..." (report.textBy clock)).trans
    (congrArg _ (List.append_nil _).symm)

/-- The streams of an undisturbed run have received what has been heard of it. -/
theorem received_heard {w : Worker} {o : σ} {ms : List (Move σ)}
    (hquiet : Undisturbed p (p.start w o) ms) (h : (p.start w o).moves p ms = some s) :
    ∃ out err, Heard p s.stage.part out err (ran p (p.start w o) ms) ∧
      s.worker.gate.out.received = w.gate.out.received ++ Gate.linesBytes out ∧
      s.worker.gate.err.received = w.gate.err.received ++ Gate.linesBytes err := by
  have haccepts : w.gate.Accepts := hquiet.accepts
  obtain ⟨_, hout, herr⟩ := received_eq haccepts h
  exact ⟨_, _, (spoken hquiet h).heard, hout, herr⟩

theorem received_of_told {w : Worker} {o : σ} {ms : List (Move σ)} {report : Report}
    (hquiet : Undisturbed p (p.start w o) ms) (h : (p.start w o).moves p ms = some s)
    (hs : s.stage = .finished (.stopped .stopCommand report)) :
    s.worker.gate.out.received = w.gate.out.received ++ Gate.linesBytes ["pid=" ++ p.processId,
      "Exiting...", report.textBy p.clock, p.settings.shutdown.completionToken] ∧
    s.worker.gate.err.received = w.gate.err.received := by
  obtain ⟨out, err, hheard, hout, herr⟩ := received_heard hquiet h
  rw [hs] at hheard
  cases hheard
  refine ⟨hout.trans (congrArg (w.gate.out.received ++ ·) ?_), herr.trans (List.append_nil _)⟩
  rw [introduction, if_pos (supervised_of_stopCommand h hs), Gate.linesBytes_append,
    Gate.linesBytes_append, Gate.linesBytes_singleton (closingLines p.clock report),
    lineBytes_closingLines, ← Gate.linesBytes_append, ← Gate.linesBytes_append]
  rfl

theorem received_of_interrupted {w : Worker} {o : σ} {ms : List (Move σ)} {report : Report}
    (hquiet : Undisturbed p (p.start w o) ms) (h : (p.start w o).moves p ms = some s)
    (hs : s.stage = .finished (.stopped .interrupted report)) :
    s.worker.gate.out.received = w.gate.out.received ++ Gate.linesBytes
      ((if p.role.isSupervised then ["pid=" ++ p.processId] else []) ++
        hookLines (ran p (p.start w o) ms) ++ ["Exiting...", report.textBy p.clock]) ∧
    s.worker.gate.err.received = w.gate.err.received ++
      Gate.linesBytes (hookLines (ran p (p.start w o) ms)) := by
  obtain ⟨out, err, hheard, hout, herr⟩ := received_heard hquiet h
  rw [hs] at hheard
  generalize ran p (p.start w o) ms = hooks at hheard ⊢
  cases hheard
  refine ⟨hout.trans (congrArg (w.gate.out.received ++ ·) ?_), herr⟩
  rw [Gate.linesBytes_append _ [closingLines p.clock report],
    Gate.linesBytes_singleton (closingLines p.clock report), lineBytes_closingLines,
    ← Gate.linesBytes_append]
  rfl

/-- What the streams of an undisturbed run have received when it has stopped.

On the stop command the agent reads who the worker is, the closing line, the report and the
completion token, and nothing that hooks print; after an interrupt it reads what hooks print, in the
order in which they were called, and no token. Either way the report names the hooks in the order in
which they were handed over, which were called in this order if every thread started in time, every
hook is told that its lines got through, and the gate is open at the end. -/
theorem console_protocol {w : Worker} {o : σ} {ms : List (Move σ)} {trigger : StopTrigger}
    {report : Report} (hquiet : Undisturbed p (p.start w o) ms)
    (h : (p.start w o).moves p ms = some s)
    (hending : s.ending? = some (.stopped trigger report)) :
    let handed := handed p (p.start w o) ms
    let hooks := ran p (p.start w o) ms
    let out := s.worker.gate.out.received
    let err := s.worker.gate.err.received
    s.worker.gate.suppressed = false ∧ report.hookNames = handed.map (fun c => c.hook.name) ∧
    ((∀ c ∈ handed, c.begun.isSome) → hooks = handed.map Sweep.Handed.hook) ∧
    (∀ e ∈ history p (p.start w o) ms, ∀ hook ∈ e.before.runs p e.move,
      (HookScript.actAll (HookScript.sweepNested p.hookLimit 1) hook.action.acts
        e.before.worker).2.1 = none) ∧
    match trigger with
    | .stopCommand =>
      out = w.gate.out.received ++ Gate.linesBytes ["pid=" ++ p.processId, "Exiting...",
        report.textBy p.clock, p.settings.shutdown.completionToken] ∧
      err = w.gate.err.received
    | .interrupted =>
      out = w.gate.out.received ++ Gate.linesBytes
        ((if p.role.isSupervised then ["pid=" ++ p.processId] else []) ++ hookLines hooks ++
          ["Exiting...", report.textBy p.clock]) ∧
      err = w.gate.err.received ++ Gate.linesBytes (hookLines hooks) ∧
      ∀ e ∈ history p (p.start w o) ms, ∀ report, e.before.stage ≠ .signing report := by
  intro handed hooks out err
  have hs := ending_stage hending
  have hgate := (spoken hquiet h).gate
  have hphase : s.stage.phase = .swept report := by
    rw [hs]
    rfl
  rw [hs] at hgate
  refine ⟨?_, hookNames_eq h hphase, ran_eq_handed, fun e he hook hruns =>
    acts_succeed hquiet.accepts h he hruns, ?_⟩
  · rw [hgate]
    cases trigger <;> rfl
  · cases trigger with
    | stopCommand => exact received_of_told hquiet h hs
    | interrupted =>
      obtain ⟨hout, herr⟩ := received_of_interrupted hquiet h hs
      exact ⟨hout, herr, unsigned_of_interrupted h hs⟩

/-! A worker with a hook that prints is told to stop. -/

def talkative : Worker :=
  (Worker.fresh (.ofStreams .unlimited .unlimited)).attach "cache"
    ⟨"cache", [.print "bye"], .succeed⟩

def toldToStop : List (Move Bool) :=
  [Move.outside fun _ => true] ++ List.replicate 8 Move.main ++ [Move.giveUp] ++
    List.replicate 3 Move.main ++ [Move.begin 0 .zero] ++ List.replicate 6 Move.main

theorem undisturbed_toldToStop {w : Worker} {s : State Bool}
    (hopen : w.gate.suppressed = false) (ha : w.gate.Accepts)
    (h : (watchedRun.start w false).moves watchedRun toldToStop = some s)
    (hstrays : collect watchedRun State.strays (watchedRun.start w false) toldToStop = []) :
    Undisturbed watchedRun (watchedRun.start w false) toldToStop := by
  refine ⟨hopen, ha, ?_, ?_⟩
  · rintro e he ⟨hguardian, _⟩
    have hmem := mem_of_mem_history h he
    simp [hguardian, toldToStop] at hmem
  · intro e he
    refine List.eq_nil_iff_forall_not_mem.mpr fun line hline => ?_
    have hmem := (mem_collect_iff h).mpr ⟨e, he, hline⟩
    rw [hstrays] at hmem
    cases hmem

theorem console_protocol_told_to_stop : ∃ s report,
    (watchedRun.start talkative false).moves watchedRun toldToStop = some s ∧
    s.ending? = some (.stopped .stopCommand report) ∧
    report.hookNames =
      (ran watchedRun (watchedRun.start talkative false) toldToStop).map Hook.name ∧
    s.worker.gate.out.received = Gate.linesBytes
      ["pid=1", "Exiting...", report.textBy .masked, "gsa-exit-done"] ∧
    s.worker.gate.err.received = [] := by
  have hending : ((watchedRun.start talkative false).moves watchedRun toldToStop).bind
      State.ending? = some (.stopped .stopCommand ⟨⟨0, 0⟩, ⟨0, 0⟩, .zero, watchedRun.hookLimit,
        [⟨"cache", .completed, .zero⟩]⟩) := by
    decide +kernel
  obtain ⟨s, hrun, hs⟩ := Option.bind_eq_some_iff.mp hending
  have hquiet := undisturbed_toldToStop rfl
    ⟨OutStream.acceptsAll_unlimited, OutStream.acceptsAll_unlimited⟩ hrun (by decide +kernel)
  obtain ⟨_, hnames, hran, _, hout, herr⟩ := console_protocol hquiet hrun hs
  refine ⟨s, _, hrun, hs, hnames.trans ?_, hout, herr⟩
  rw [hran (by decide +kernel), List.map_map]
  rfl

end Run

end SupervisedWorker
