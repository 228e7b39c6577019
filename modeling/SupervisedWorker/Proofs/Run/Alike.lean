import SupervisedWorker.Proofs.Hook.Silent
import SupervisedWorker.Proofs.Run.Accounting
import SupervisedWorker.Proofs.Run.Calls
import SupervisedWorker.Proofs.Run.Console

/-!
# Runs alike but for their consoles

No step of a run reads the journal, or asks how the streams are. So where hooks print nothing, two
runs that differ in their consoles only can take the same moves, and differ in their consoles only
afterwards.

Results:
1. `guardianStep_alike`, `boot_alike`: what does not concern hooks is the same in both runs.
2. `State.IsSilent.move`: hooks that print nothing stay the only ones.
3. `move_alike`, `calls_alike`: both runs can take the same moves, and call the same hooks with the
   same replies.
-/

namespace SupervisedWorker

namespace Run

variable {σ : Type} {p : Plan σ} {s s' t : State σ}

/-! ## 1. Runs alike but for their consoles -/

namespace State

/-- Two runs that differ only in the consoles and the journals of their processes. -/
inductive Alike (s : State σ) : State σ → Prop
  | worker (w : Worker) : s.worker.Alike w → Alike s { s with worker := w }

theorem Alike.refl (s : State σ) : s.Alike s := .worker s.worker (.refl s.worker)

theorem Alike.symm (h : s.Alike t) : t.Alike s := by
  cases h with
  | worker w hw => exact .worker s.worker hw.symm

theorem Alike.trans (h : s.Alike s') (h' : s'.Alike t) : s.Alike t := by
  cases h with
  | worker w hw =>
    cases h' with
    | worker w' hw' => exact .worker w' (hw.trans hw')

theorem Alike.workers (h : s.Alike t) : s.worker.Alike t.worker := by
  cases h with
  | worker w hw => exact hw

theorem Alike.stage (h : s.Alike t) : t.stage = s.stage := by
  cases h
  rfl

theorem Alike.guardian (h : s.Alike t) : t.guardian = s.guardian := by
  cases h
  rfl

theorem Alike.interrupt (h : s.Alike t) : t.interrupt = s.interrupt := by
  cases h
  rfl

theorem Alike.ending (h : s.Alike t) : t.ending? = s.ending? := by
  cases h
  rfl

theorem Alike.sweep? (h : s.Alike t) : t.sweep? = s.sweep? := by
  cases h
  rfl

/-! What is written to the journals and what lines come to does not matter. -/

theorem alike_write (e : JournalEntry) (s : State σ) : s.Alike (s.write e) :=
  .worker _ (Worker.alike_write e s.worker)

theorem alike_writes (entries : Journal) (s : State σ) :
    s.Alike (entries.foldl (fun s e => s.write e) s) := by
  induction entries generalizing s with
  | nil => exact .refl s
  | cons e entries ih => exact (alike_write e s).trans (ih (s.write e))

theorem Alike.write (h : s.Alike t) (e e' : JournalEntry) : (s.write e).Alike (t.write e') :=
  ((alike_write e s).symm.trans h).trans (alike_write e' t)

theorem Alike.noted (h : s.Alike t) (c c' : Prop) [Decidable c] [Decidable c']
    (e e' : JournalEntry) :
    Alike (if c then s.write e else s) (if c' then t.write e' else t) := by
  have hnoted : ∀ (s : State σ) (c : Prop) [Decidable c] (e : JournalEntry),
      s.Alike (if c then s.write e else s) := by
    intro s c _ e
    split
    · exact alike_write e s
    · exact .refl s
  exact ((hnoted s c e).symm.trans h).trans (hnoted t c' e')

theorem alike_gate {gate : Gate} (hgate : gate.suppressed = s.worker.gate.suppressed) :
    s.Alike { s with worker := { s.worker with gate } } :=
  .worker _ (.console gate s.worker.journal s.worker.shown hgate)

theorem alike_settleLine (written : Except StreamError Unit) (s : State σ) :
    s.Alike (s.settleLine written) := by
  cases written with
  | error e => exact alike_write (lineEntry e) s
  | ok =>
    have hflushed : s.Alike { s with worker := { s.worker with gate := s.worker.gate.flush.2 } } :=
      alike_gate (Gate.suppressed_flush s.worker.gate)
    unfold State.settleLine
    dsimp only
    split
    · exact hflushed
    · exact hflushed.trans (alike_write _ _)

theorem alike_say (line : String) (s : State σ) : s.Alike (s.say line) :=
  (alike_gate (Gate.pass_suppressed ..)).trans (alike_settleLine _ _)

theorem Alike.say (h : s.Alike t) (line : String) : (s.say line).Alike (t.say line) :=
  ((alike_say line s).symm.trans h).trans (alike_say line t)

/-! Whatever else is done to both runs keeps them alike. -/

theorem Alike.goTo (h : s.Alike t) (stage : Stage) : (s.goTo stage).Alike (t.goTo stage) := by
  cases h with
  | worker w hw => exact .worker w hw

theorem Alike.keepSweep (h : s.Alike t) (progress : Sweep.Progress HookScript) :
    (s.keepSweep progress).Alike (t.keepSweep progress) := by
  cases h with
  | worker w hw =>
    unfold State.keepSweep
    dsimp only
    split <;> exact .worker w hw

theorem Alike.guarded (h : s.Alike t) (guardian : Guardian) :
    Alike { s with guardian } { t with guardian } := by
  cases h with
  | worker w hw => exact .worker w hw

theorem Alike.raise (h : s.Alike t) : s.raise.Alike t.raise := by
  cases h with
  | worker w hw => exact .worker w hw

theorem Alike.suppress (h : s.Alike t) : s.suppress.Alike t.suppress := by
  cases h with
  | worker w hw =>
    cases hw with
    | console gate journal shown hgate => exact .worker _ (.console _ journal shown rfl)

theorem Alike.resume (h : s.Alike t) : s.resume.Alike t.resume := by
  cases h with
  | worker w hw =>
    cases hw with
    | console gate journal shown hgate => exact .worker _ (.console _ journal shown rfl)

theorem Alike.record (h : s.Alike t) (reason : String) :
    (s.record reason).Alike (t.record reason) := by
  refine ((alike_writes _ _).symm.trans ?_).trans (alike_writes _ _)
  cases h with
  | worker w hw => exact .worker w hw

end State

open State

theorem look_alike (h : s.Alike t) (w : StopWatch) (last : Bool) :
    (look p w last s).Alike (look p w last t) := by
  cases h with
  | worker v hv =>
    unfold look StopWatch.seesMarker
    dsimp only [FileSystem.within, callWithin]
    have hseen (outside : σ) : Alike { s with outside } { s with worker := v, outside } :=
      .worker v hv
    cases (p.files.probe w.marker s.outside).1 with
    | ok _ => exact (hseen _).goTo _
    | error e =>
      dsimp only
      split
      · exact (hseen _).goTo _
      · exact ((hseen _).write _ _).goTo _

theorem remove_alike (h : s.Alike t) (w : StopWatch) (last : Bool) (left attempt : Nat) :
    (remove p w last left attempt s).Alike (remove p w last left attempt t) := by
  unfold remove
  cases left with
  | zero => exact (h.write _ _).goTo _
  | succ left =>
    cases h with
    | worker v hv =>
      unfold StopWatch.removeOnce
      dsimp only [FileSystem.within, callWithin]
      have hremoved (outside : σ) : Alike { s with outside } { s with worker := v, outside } :=
        .worker v hv
      cases (p.files.remove w.marker s.outside).1 with
      | ok _ => exact (hremoved _).goTo _
      | error e =>
        by_cases hmissing : e = .missing
        · simp only [hmissing, if_true]
          exact (hremoved _).goTo _
        · simp only [hmissing, if_false]
          exact ((hremoved _).write _ _).goTo _

theorem keepHouse_alike (h : s.Alike t) (chore : Chore σ) :
    (keepHouse chore s).Alike (keepHouse chore t) := by
  refine ((alike_writes _ _).symm.trans ?_).trans (alike_writes _ _)
  cases h with
  | worker w hw => exact .worker w hw

/-- The monitor takes the same step in both runs. -/
theorem monitor_alike (h : s.Alike t) (phase : Monitor.Phase) :
    let x := p.monitor.step (monitorSurroundings p) phase s
    let x' := p.monitor.step (monitorSurroundings p) phase t
    x.1 = x'.1 ∧ x.2.Alike x'.2 := by
  have houtside (outside : σ) : Alike { s with outside } { t with outside } := by
    cases h with
    | worker w hw => exact .worker w hw
  have hsame : t.outside = s.outside := by
    cases h
    rfl
  cases phase with
  | starting =>
    simp only [Monitor.step, monitorSurroundings, hsame]
    exact ⟨trivial, houtside _⟩
  | asleep last =>
    have hcancelled : (monitorSurroundings p).cancelled t = (monitorSurroundings p).cancelled s :=
      congrArg Interrupt.raised h.interrupt
    rw [Monitor.step, Monitor.step, hcancelled]
    split
    · exact ⟨rfl, h⟩
    · simp only [Monitor.sampleRound, monitorSurroundings, hsame]
      exact ⟨trivial, (houtside _).noted ..⟩
  | sampled last =>
    simp only [Monitor.step, monitorSurroundings]
    cases p.chore with
    | none => exact ⟨rfl, h⟩
    | some chore => exact ⟨rfl, keepHouse_alike h chore⟩
  | kept last =>
    simp only [Monitor.step, monitorSurroundings]
    cases p.role.identity? with
    | none => exact ⟨rfl, h⟩
    | some i =>
      simp only [Option.map_some, askAgent, hsame]
      cases (AgentProbe.check p.files p.layout i s.outside).1 <;> exact ⟨rfl, houtside _⟩
  | checked last =>
    simp only [Monitor.step, monitorSurroundings, hsame]
    refine ⟨?_, houtside _⟩
    rw [h.interrupt]
    rfl
  | ended exit => exact ⟨rfl, h⟩

theorem guardianStep_alike (h : s.Alike t) :
    Option.Rel Alike (guardianStep p s) (guardianStep p t) := by
  unfold guardianStep
  rw [h.guardian]
  cases s.guardian with
  | absent | done => exact .none
  | watching phase =>
    obtain ⟨hphase, halike⟩ := monitor_alike (p := p) h phase
    dsimp only
    rw [← hphase]
    exact .some (halike.guarded _)
  | muting => exact .some (h.suppress.guarded _)
  | warning => exact .some ((h.write _ _).guarded _)
  | recording => exact .some ((h.record _).guarded _)
  | raising => exact .some (h.raise.guarded _)

/-- The boot writes to the journal and attaches hooks, and leaves the console as it is. -/
theorem bootFrom_alike {w w' : Worker} (h : w.Alike w') (c : Catalog StarterScript)
    (names : List String) (started : Nat) (notes : List String) :
    let x := c.bootFrom StarterScript.boot started names (w, notes)
    let x' := c.bootFrom StarterScript.boot started names (w', notes)
    x.1 = x'.1 ∧ x.2.1.Alike x'.2.1 ∧ x.2.2 = x'.2.2 ∧ x.2.1.gate = w.gate := by
  induction names generalizing started w w' notes with
  | nil => exact ⟨rfl, h, rfl, rfl⟩
  | cons name names ih =>
    unfold Catalog.bootFrom
    cases c.find? name with
    | none => exact ih (h.write (Catalog.skipEntry name) (Catalog.skipEntry name)) started notes
    | some starter =>
      obtain ⟨tag, result⟩ := starter
      cases result with
      | fails cause => exact ⟨rfl, h, rfl, rfl⟩
      | started => exact ih h (started + 1) _
      | closing acts ending =>
        exact ih (h.attach (Catalog.hookName name) ⟨name, acts, ending⟩) (started + 1) _

theorem boot_alike (h : s.Alike t) : (boot p s).Alike (boot p t) := by
  cases h with
  | worker w hw =>
    obtain ⟨hanswer, halike, hnotes, _⟩ := bootFrom_alike hw p.catalog
      p.settings.general.services 0 s.started
    unfold boot Catalog.boot
    dsimp only
    rcases hb : p.catalog.bootFrom StarterScript.boot 0 p.settings.general.services
      (s.worker, s.started) with ⟨answer, v, notes⟩
    rcases hb' : p.catalog.bootFrom StarterScript.boot 0 p.settings.general.services
      (w, s.started) with ⟨answer', v', notes'⟩
    rw [hb, hb'] at hanswer halike hnotes
    cases hanswer
    cases hnotes
    cases answer <;> exact .worker v' halike

theorem boot_gate (p : Plan σ) (s : State σ) : (boot p s).worker.gate = s.worker.gate := by
  have h :=
    (bootFrom_alike (.refl s.worker) p.catalog p.settings.general.services 0 s.started).2.2.2
  unfold boot Catalog.boot
  split <;> rename_i heq <;> rw [heq] at h <;> exact h

theorem drain_alike (h : s.Alike t) (trigger : StopTrigger) :
    (drain p trigger s).Alike (drain p trigger t) := by
  cases h with
  | worker w hw =>
    cases hw with
    | console gate journal shown hgate => exact .worker _ (.console gate journal shown hgate)

/-! ## 2. Hooks that print nothing -/

/-- Whether no service leaves a hook that prints. -/
def Plan.IsSilent (p : Plan σ) : Prop :=
  ∀ name script, p.catalog.closing? name = some script → script.lines = []

/-- Whether a move neither registers a hook that prints nor is one that prints. -/
def Move.IsSilent : Move σ → Prop
  | .register _ script => script.lines = []
  | .straggle _ => False
  | _ => True

/-- A run whose hooks print nothing, neither those that are registered nor those of its sweep on
which no thread has started. -/
structure State.IsSilent (s : State σ) : Prop extends s.Sealing where
  registered : AllSilent s.worker.registry.hooks
  toCome : ∀ progress, s.sweep? = some progress → AllSilent progress.toCome

theorem attached_silent {w : Worker} (hw : AllSilent w.registry.hooks) {script : HookScript}
    (hscript : script.lines = []) (name : String) :
    AllSilent (w.attach name script).registry.hooks := by
  intro hook hhook
  simp only [Worker.attach, Registry.hooks_register] at hhook
  split at hhook
  · exact hw hook hhook
  · rw [List.mem_append, List.mem_singleton] at hhook
    rcases hhook with hhook | rfl
    · exact hw hook hhook
    · exact hscript

theorem bootFrom_silent (hp : p.IsSilent) {w : Worker} (hw : AllSilent w.registry.hooks)
    (names : List String) (started : Nat) (notes : List String) :
    AllSilent
      (p.catalog.bootFrom StarterScript.boot started names (w, notes)).2.1.registry.hooks := by
  induction names generalizing started w notes with
  | nil => exact hw
  | cons name names ih =>
    unfold Catalog.bootFrom
    cases hfind : p.catalog.find? name with
    | none =>
      have hskipped : AllSilent (w.write (Catalog.skipEntry name)).registry.hooks := hw
      exact ih hskipped started notes
    | some starter =>
      obtain ⟨tag, result⟩ := starter
      cases result with
      | fails cause => exact hw
      | started => exact ih hw (started + 1) _
      | closing acts ending =>
        have hscript : HookScript.lines ⟨name, acts, ending⟩ = [] :=
          hp name _ (by rw [Catalog.closing?, hfind])
        exact ih (attached_silent hw hscript (Catalog.hookName name)) (started + 1) _

theorem boot_silent (hp : p.IsSilent) (hs : AllSilent s.worker.registry.hooks) :
    AllSilent (boot p s).worker.registry.hooks := by
  have h := bootFrom_silent hp hs p.settings.general.services 0 s.started
  unfold boot Catalog.boot
  split <;> rename_i heq <;> rw [heq] at h <;> exact h

theorem sealed_silent {w : Worker} (hw : w.IsSealed) : AllSilent w.registry.hooks := by
  rw [hw]
  nofun

theorem silent_start {w : Worker} (hw : AllSilent w.registry.hooks) (o : σ) :
    (p.start w o).IsSilent :=
  ⟨⟨orderly_start p w o, fun hclosed => by cases hclosed⟩, hw, nofun⟩

/-- What leaves hooks and the phase alone lets no hook in. -/
theorem State.IsSilent.quiet (hs : s.IsSilent) (hledger : s'.ledger = s.ledger)
    (hphase : s'.stage.phase = s.stage.phase) : s'.IsSilent := by
  obtain ⟨hworker, hleft⟩ := State.ledger_inj hledger
  refine ⟨hs.toSealing.quiet hledger hphase, ?_, fun q hq => ?_⟩
  · rw [(Worker.ledger_inj hworker).1]
    exact hs.registered
  · rw [State.sweep?_eq hphase hleft] at hq
    exact hs.toCome q hq

/-- Hooks go on printing nothing. -/
theorem State.IsSilent.move (hp : p.IsSilent) {m : Move σ} (hm : m.IsSilent) (hs : s.IsSilent)
    (h : s.move p m = some s') : s'.IsSilent := by
  refine ⟨sealed_step h hs.toSealing, ?_, ?_⟩
  · cases move_effect h with
    | quiet _ _ hledger hphase => exact (hs.quiet hledger hphase).registered
    | boot => exact boot_silent hp hs.registered
    | drain => exact nofun
    | sweep hsweeping =>
      have hsealed := hs.of_sweep (State.sweep?_of_sweeping hsweeping)
      unfold Run.sweep
      split
      · exact hs.registered
      · exact sealed_silent ((Sweep.step_sameHooks ..).isSealed hsealed)
    | register name script => exact attached_silent hs.registered hm name
    | deregister number =>
      intro hook hhook
      unfold Worker.deregister at hhook
      split at hhook
      · exact hs.registered hook hhook
      · exact hs.registered hook (List.eraseP_subset hhook)
    | begin hsweep hbegin =>
      rw [State.worker_keepSweep]
      exact sealed_silent (Sweep.begin_sealed (hs.of_sweep hsweep) hbegin)
    | deliver =>
      rw [State.worker_keepSweep]
      exact hs.registered
  · intro q hq
    cases move_effect h with
    | quiet _ _ hledger hphase => exact (hs.quiet hledger hphase).toCome q hq
    | boot hbooting =>
      have hopen : s.stage.phase.isOpen = true := by
        rw [hbooting]
        rfl
      have hopen' : (boot p s).stage.phase.isOpen = true := by
        rcases boot_phase p s with hphase | ⟨failure, hphase⟩ <;> rw [hphase] <;> rfl
      rw [State.sweep?_of_left (Stage.isSweeping_of_isOpen hopen'), boot_left,
        hs.left_eq_none hopen] at hq
      cases hq
    | drain =>
      cases hq
      exact fun hook hhook => hs.registered hook (List.mem_reverse.mp hhook)
    | @sweep trigger progress hsweeping =>
      have hsilent := hs.toCome progress (State.sweep?_of_sweeping hsweeping)
      unfold Run.sweep at hq
      split at hq
      · cases trigger <;> cases hq <;> exact hsilent
      · have hnext : (progress.step Worker.surroundings s.worker).1 = q := Option.some.inj hq
        rw [← hnext, Sweep.toCome_step]
        exact hsilent
    | register | deregister => exact hs.toCome q hq
    | begin hsweep hbegin =>
      rw [State.sweep?_keepSweep] at hq
      cases hq
      exact fun hook hhook => hs.toCome _ hsweep hook (Sweep.mem_toCome_begin hbegin hhook)
    | @deliver progress _ _ _ hsweep hdeliver =>
      rw [State.sweep?_keepSweep] at hq
      cases hq
      obtain ⟨_, rfl⟩ := Sweep.Progress.deliver_eq hdeliver
      exact hs.toCome progress hsweep

/-! ## 3. The same moves and the same calls -/

/-- A step of a sweep is the same in both runs. -/
theorem sweep_alike (h : s.Alike t) (trigger : StopTrigger)
    (progress : Sweep.Progress HookScript) :
    (sweep trigger progress s).Alike (sweep trigger progress t) := by
  cases h with
  | worker w hw =>
    obtain ⟨hprogress, halike, _⟩ := Sweep.step_silent hw progress
    unfold sweep
    split
    · exact .worker w hw
    · simp only [← hprogress]
      exact .worker _ halike

/-- A thread starts on a hook that prints nothing in both runs, and leaves the console as it is. -/
theorem begin_alike (h : s.Alike t) (hs : s.IsSilent) (hook : Nat) (delay : Duration) :
    Option.Rel (fun s' t' => s'.Alike t' ∧ s'.worker.gate = s.worker.gate)
      (s.begin p hook delay) (t.begin p hook delay) := by
  unfold State.begin
  rw [h.sweep?]
  cases hsweep : s.sweep? with
  | none => exact .none
  | some progress =>
    have hrel := Sweep.begin_silent (hs.of_sweep hsweep) h.workers p.hookLimit 1
      (hs.toCome progress hsweep) hook delay
    simp only [Option.bind_some, call]
    generalize progress.begin _ hook delay s.worker = x at hrel ⊢
    generalize progress.begin _ hook delay t.worker = x' at hrel ⊢
    cases hrel with
    | none => exact .none
    | @some y y' hy =>
      obtain ⟨hprogress, halike, hgate⟩ := hy
      simp only [Option.map_some, ← hprogress]
      refine .some ⟨Alike.keepSweep ?_ y.1, ?_⟩
      · cases h
        exact .worker y'.2 halike
      · rw [State.worker_keepSweep]
        exact hgate

theorem mainStep_alike (h : s.Alike t) :
    Option.Rel Alike (mainStep p s) (mainStep p t) := by
  unfold mainStep
  rw [h.stage]
  cases s.stage with
  | opening =>
    refine .some ?_
    split
    · exact (h.say _).goTo _
    · exact h.goTo _
  | booting => exact .some (boot_alike h)
  | watching =>
    dsimp only
    rw [h.interrupt]
    split
    · exact .some (h.goTo _)
    · cases p.watch with
      | none => exact .none
      | some w => exact .some (h.goTo _)
  | polling last =>
    cases p.watch with
    | none => exact .none
    | some w => exact .some (look_alike h w last)
  | removing last left attempt =>
    cases p.watch with
    | none => exact .none
    | some w => exact .some (remove_alike h w last left attempt)
  | dozing | released trigger =>
    dsimp only
    rw [h.interrupt]
    exact .some (h.goTo _)
  | stopping trigger => exact .some ((h.record _).goTo _)
  | raising trigger => exact .some (h.raise.goTo _)
  | joining trigger =>
    dsimp only
    rw [h.guardian]
    split
    · exact .some (h.goTo _)
    · exact .none
  | quieting => exact .some (h.suppress.goTo _)
  | draining trigger => exact .some (drain_alike h trigger)
  | sweeping trigger progress => exact .some (sweep_alike h trigger progress)
  | resuming report => exact .some (h.resume.goTo _)
  | reporting trigger report | signing report => exact .some ((h.say _).goTo _)
  | lingering | leaving report => exact .some (h.goTo _)
  | finished ending => exact .none

/-- Runs that differ in their consoles only can take the same moves, and then still do. -/
theorem move_alike (h : s.Alike t) (hs : s.IsSilent) {m : Move σ} (hm : m.IsSilent) :
    Option.Rel Alike (s.move p m) (t.move p m) := by
  cases m with
  | main => exact mainStep_alike h
  | guardian => exact guardianStep_alike h
  | giveUp =>
    simp only [State.move, State.giveUp, h.stage]
    split
    · exact .some ((h.write _ _).goTo _)
    · exact .none
  | begin hook delay =>
    have hrel := begin_alike (p := p) h hs hook delay
    simp only [State.move]
    generalize s.begin p hook delay = s? at hrel ⊢
    generalize t.begin p hook delay = t? at hrel ⊢
    cases hrel with
    | none => exact .none
    | some halike => exact .some halike.1
  | deliver hook outcome =>
    simp only [State.move, State.deliver, h.sweep?]
    cases s.sweep? with
    | none => exact .none
    | some progress =>
      simp only [Option.bind_some]
      cases progress.deliver hook outcome with
      | none => exact .none
      | some progress => exact .some (h.keepSweep progress)
  | record reason => exact .some (h.record reason)
  | raise =>
    simp only [State.move, h.interrupt]
    split
    · exact .some h.raise
    · exact .none
  | outside change =>
    cases h with
    | worker w hw => exact .some (.worker w hw)
  | register name script =>
    cases h with
    | worker w hw => exact .some (.worker _ (hw.register name script))
  | deregister number =>
    cases h with
    | worker w hw => exact .some (.worker _ (hw.deregister number).2)
  | straggle line => cases hm

/-- A move hands over the same hooks in both runs, and calls them with the same replies. -/
theorem calls_alike (h : s.Alike t) (hs : s.IsSilent) (m : Move σ) :
    t.calls p m = s.calls p m ∧ t.misses m = s.misses m := by
  refine ⟨?_, ?_⟩
  · cases m with
    | begin hook delay =>
      simp only [State.calls, h.stage]
      cases hstage : s.stage with
      | sweeping trigger progress =>
        have hsweep := State.sweep?_of_sweeping hstage
        dsimp only
        split
        · refine List.map_congr_left fun job hjob => ?_
          have hsilent := hs.toCome progress hsweep job.2
            (Sweep.mem_toCome_of_job (Option.mem_toList.mp hjob))
          rw [call, (HookScript.callBy_silent (hs.of_sweep hsweep) h.workers p.hookLimit 1 job.1
            hsilent).1]
        · rfl
      | _ => rfl
    | _ => rfl
  · cases m with
    | main => simp only [State.misses, h.stage]
    | _ => rfl

end Run

end SupervisedWorker
