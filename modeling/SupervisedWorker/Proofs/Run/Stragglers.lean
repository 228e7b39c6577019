import SupervisedWorker.Proofs.Run.Protocol

/-!
# Hooks that were left alone

A hook that overruns its limit is left alone and goes on, or is called later, when its thread starts
on it at last. A run that is told to stop suppresses the gate for its sweep and resumes it before the
report, and from then on the gate lets through whatever such a hook prints: before the report,
between the report and the completion token, and behind the token.

Results:
1. `closed_of_stray`: before the sweep there is no such hook.
2. `quiet_suppressed`: the gate is suppressed from before the sweep until it is resumed.
3. `hooks_heard`: hooks are heard where one that was left alone prints after that.
4. `late_lines_heard`: what the streams have received of such a run, in order.
5. `hooks_heard_iff_leaks`: when hooks are heard, and where.
6. `token_not_last`: that they are heard in all three places.
-/

namespace SupervisedWorker

namespace Run

open Worker

variable {σ : Type} {p : Plan σ} {s s' s₀ : State σ}

/-! ## 1. Strays -/

/-- A hook that prints though the sweep does not wait for it prints the same to both streams, and
leaves the main task in its part. -/
theorem stray_move {m : Move σ} (h : s.move p m = some s') (hstray : s.strays m ≠ []) :
    s'.stage.part = s.stage.part ∧ s.gating m = none ∧ s.toOut p m = s.strays m ∧
      s.toErr m = s.strays m ∧ ∃ progress, s.sweep? = some progress := by
  cases m with
  | straggle line =>
    rw [State.move] at h
    split at h
    · rename_i hstragglers
      cases h
      rw [State.hasStragglers, Option.any_eq_true] at hstragglers
      obtain ⟨progress, hsweep, _⟩ := hstragglers
      exact ⟨rfl, rfl, rfl, rfl, progress, hsweep⟩
    · cases h
  | begin hook delay =>
    obtain ⟨progress, progress', worker, hsweep, _, rfl⟩ := begin_keeps h
    have hlines : s.strays (.begin hook delay) = progress.linesOf hook := by
      simp only [State.strays, hsweep, Option.elim_some] at hstray ⊢
      exact ite_eq_right_iff.mpr fun hin => absurd (if_pos hin) hstray
    refine ⟨?_, rfl, ?_, ?_, progress, hsweep⟩
    · rcases State.sweep?_cases hsweep with ⟨trigger, hs⟩ | ⟨hs, _⟩
      · rw [State.keepSweep_of_sweeping (s := { s with worker }) hs, hs]
        cases trigger <;> rfl
      · rw [State.keepSweep_of_left (s := { s with worker }) hs]
    · rw [hlines, State.toOut, hsweep]
      rfl
    · rw [hlines, State.toErr, hsweep]
      rfl
  | _ => exact absurd rfl hstray

theorem closed_of_stray {w : Worker} {o : σ} {ms : List (Move σ)} {m : Move σ}
    (h : (p.start w o).moves p ms = some s) (hm : s.move p m = some s')
    (hstray : s.strays m ≠ []) : s.stage.phase.isOpen = false := by
  obtain ⟨_, _, _, _, progress, hsweep⟩ := stray_move hm hstray
  exact (sealed_run h).closed hsweep

/-! ## 2. Parts of a run -/

/-- The times at which the gate is open after the sweep. -/
inductive Window
  /-- Before the report. -/
  | report
  /-- Between the report and the completion token. -/
  | token
  /-- Behind the token, while the run waits for its agent to read. -/
  | linger
deriving DecidableEq, Repr

def Part.window? : Part → Option Window
  | .answering => some .report
  | .signing _ => some .token
  | .signed _ => some .linger
  | _ => none

/-- Whether the run was interrupted, and its hooks may be heard. -/
def Part.isInterrupted : Part → Bool
  | .hooks | .closed _ => true
  | _ => false

theorem part_of_closed {stage : Stage} (h : stage.phase.isOpen = false) :
    stage.part.isQuiet = true ∨ stage.part.isInterrupted = true ∨
      stage.part.window?.isSome = true := by
  cases stage with
  | sweeping trigger =>
    cases trigger
    · exact .inl rfl
    · exact .inr (.inl rfl)
  | resuming => exact .inl rfl
  | reporting trigger =>
    cases trigger
    · exact .inr (.inr rfl)
    · exact .inr (.inl rfl)
  | signing | leaving => exact .inr (.inr rfl)
  | finished ending =>
    cases ending with
    | stopped trigger =>
      cases trigger
      · exact .inr (.inr rfl)
      · exact .inr (.inl rfl)
    | _ => cases h
  | _ => cases h

theorem Speech.isInterrupted {part part' : Part} {out err : List String}
    {hooks : List (Hook HookScript)} {gating : Option Bool}
    (h : Speech p part out err hooks gating part') (hpart : part.isInterrupted = true) :
    part'.isInterrupted = true := by
  cases h with
  | stay => exact hpart
  | call | close => rfl
  | _ => cases hpart

/-- Only hooks print to the error output, and the sweep waits for those that are no strays. -/
theorem Speech.part_of_err {part part' : Part} {out err : List String}
    {hooks : List (Hook HookScript)} {gating : Option Bool}
    (h : Speech p part out err hooks gating part') (herr : err ≠ []) :
    part.isQuiet = true ∨ part.isInterrupted = true := by
  cases h with
  | callQuietly => exact .inl rfl
  | call => exact .inr rfl
  | _ => exact absurd rfl herr

/-- Whatever moves the gate besides the main task, and whatever prints, the parts follow one another
as the main task goes. -/
theorem part_move {m : Move σ} (h : s.move p m = some s') :
    Speech p s.stage.part (s.toOut p m) (s.toErr m) (s.runs p m) (s.gating m) s'.stage.part ∨
      s'.stage.part = s.stage.part ∧ s.gating m ≠ some false := by
  by_cases hstray : s.strays m = []
  · by_cases hguardian : m = .guardian
    · subst hguardian
      refine .inr ⟨congrArg Stage.part (guardianStep_keeps h).2, fun hgating => ?_⟩
      cases (resuming_of_gating hgating).1
    · exact .inl (move_speech h hstray fun hm => absurd hm hguardian)
  · obtain ⟨hpart, hgating, _⟩ := stray_move h hstray
    exact .inr ⟨hpart, by rw [hgating]; exact nofun⟩

/-- The gate is suppressed from before the sweep until it is resumed. -/
theorem quiet_suppressed {w : Worker} {o : σ} {ms : List (Move σ)}
    (h : (p.start w o).moves p ms = some s) (hquiet : s.stage.part.isQuiet = true) :
    s.worker.gate.suppressed = true := by
  refine State.moves_induction (motive := fun _ s =>
    s.stage.part.isQuiet = true → s.worker.gate.suppressed = true) ?_ ?_ h hquiet
  · intro hquiet
    cases hquiet
  intro _ m s s' hs hm ih hquiet'
  rw [suppressed_move hm (sealed_run hs)]
  obtain hspeech | ⟨hsame, hgating⟩ := part_move hm
  · rw [hspeech.isQuiet] at hquiet'
    cases hg : s.gating m with
    | none =>
      rw [hg] at hquiet'
      exact ih hquiet'
    | some b =>
      rw [hg] at hquiet'
      exact hquiet'
  · rw [hsame] at hquiet'
    cases hg : s.gating m with
    | none => exact ih hquiet'
    | some b =>
      cases b with
      | true => rfl
      | false => exact absurd hg hgating

theorem interrupted_moves {ms : List (Move σ)} (h : s.moves p ms = some s')
    (hs : s.stage.part.isInterrupted = true) : s'.stage.part.isInterrupted = true := by
  refine State.moves_induction (motive := fun _ s => s.stage.part.isInterrupted = true) hs ?_ h
  intro _ m s s' _ hm hs
  obtain hspeech | ⟨hsame, _⟩ := part_move hm
  · exact hspeech.isInterrupted hs
  · rw [hsame, hs]

/-- A run that ends on the stop command never lets its hooks be heard during the sweep. -/
theorem uninterrupted_of_told {ms : List (Move σ)} {report : Report} (h : s₀.moves p ms = some s)
    (hs : s.stage = .finished (.stopped .stopCommand report)) {e : Event σ}
    (he : e ∈ history p s₀ ms) : e.before.stage.part.isInterrupted = false := by
  -- An interrupted run never comes to the end of one that was told to stop.
  by_contra hinterrupted
  obtain ⟨before, after, rfl, hbefore, _⟩ := (mem_history_iff h).mp he
  obtain ⟨t, ht, hrest⟩ := State.moves_append_some h
  rw [hbefore] at ht
  cases ht
  have hstill := interrupted_moves hrest (by simpa using hinterrupted)
  rw [hs] at hstill
  cases hstill

/-! ## 3. When hooks are heard -/

/-- A hook prints that the sweep does not wait for, in one of the windows, and the gate lets it
through. -/
def Event.Leaks (e : Event σ) : Prop :=
  e.before.stage.part.window?.isSome = true ∧ e.before.worker.gate.suppressed = false ∧
    e.before.strays e.move ≠ []

/-- What is heard on the error output is from hooks, and is heard on the output as well. -/
theorem heardErr_sublist (p : Plan σ) (s : State σ) (m : Move σ) :
    (s.heardErr m).Sublist (s.heardOut p m) := by
  unfold State.heardErr State.heardOut
  split
  · exact List.Sublist.refl []
  · cases m with
    | main => exact List.nil_sublist _
    | _ => exact List.Sublist.refl _

/-- In a run that ends on the stop command, hooks are heard where one of them leaks. -/
theorem hooks_heard {w : Worker} {o : σ} {ms : List (Move σ)} {report : Report}
    (h : (p.start w o).moves p ms = some s)
    (hs : s.stage = .finished (.stopped .stopCommand report)) {e : Event σ}
    (he : e ∈ history p (p.start w o) ms) : e.before.heardErr e.move ≠ [] ↔ e.Leaks := by
  obtain ⟨before, after, rfl, hbefore, hmove⟩ := (mem_history_iff h).mp he
  have htold := uninterrupted_of_told h hs he
  constructor
  · intro hheard
    have hopen : e.before.worker.gate.suppressed = false := by
      by_contra hsuppressed
      exact hheard (if_pos (by simpa using hsuppressed))
    -- The gate is suppressed for the sweep, so it is not one of its calls that is heard.
    have hpart : ¬(e.before.stage.part.isQuiet = true ∨ e.before.stage.part.isInterrupted = true) := by
      rintro (hquiet | hinterrupted)
      · rw [quiet_suppressed hbefore hquiet] at hopen
        cases hopen
      · rw [htold] at hinterrupted
        cases hinterrupted
    rw [State.heardErr, hopen] at hheard
    have hstray : e.before.strays e.move ≠ [] := by
      intro hquiet
      by_cases hguardian : e.move = .guardian
      · rw [hguardian] at hheard
        exact hheard rfl
      · exact hpart ((move_speech hmove hquiet fun hm => absurd hm hguardian).part_of_err hheard)
    have hclosed := part_of_closed (closed_of_stray hbefore hmove hstray)
    exact ⟨(or_assoc.mpr hclosed).resolve_left hpart, hopen, hstray⟩
  · rintro ⟨_, hopen, hstray⟩
    obtain ⟨_, _, _, herr, _⟩ := stray_move hmove hstray
    rw [State.heardErr, hopen, herr]
    exact hstray

/-! ## 4. What is heard behind the resumed gate -/

/-- The lines of hooks that are heard in a window. -/
def late (p : Plan σ) (window : Window) : State σ → List (Move σ) → List String :=
  collect p fun s m => if s.stage.part.window? = some window then s.heardErr m else []

/-- What has been heard on either stream by a part, given what was heard of hooks in each window. -/
inductive Told (p : Plan σ) : Part → List String → List String → List String → List String →
    List String → Prop
  | opening : Told p .opening [] [] [] [] []
  | introduced : Told p .introduced [] [] [] (introduction p) []
  | quiet : Told p .quiet [] [] [] (introduction p) []
  | answering (first : List String) : Told p .answering first [] [] (introduction p ++ first) first
  | signing (report : Report) (first second : List String) :
      Told p (.signing report) first second []
        (introduction p ++ first ++ [closingLines p.clock report] ++ second) (first ++ second)
  | signed (report : Report) (first second third : List String) :
      Told p (.signed report) first second third
        (introduction p ++ first ++ [closingLines p.clock report] ++ second ++
          [p.settings.shutdown.completionToken] ++ third) (first ++ second ++ third)
  | interrupted {part : Part} {first second third out err : List String} :
      part.isInterrupted = true → Told p part first second third out err

section Told

variable {part part' : Part} {first second third out err out' err' : List String}
  {hooks : List (Hook HookScript)} {gating : Option Bool}

theorem Speech.window (h : Speech p part out err hooks gating part')
    (hwindow : part.window?.isSome = true) : err = [] := by
  cases h <;> first | rfl | cases hwindow

theorem Told.speech (h : Told p part first second third out err)
    (hspeech : Speech p part out' err' hooks gating part') :
    Told p part' first second third (out ++ if part.isQuiet then [] else out')
      (err ++ if part.isQuiet then [] else err') := by
  -- Nothing is said about an interrupted run, so only the ways among the other parts are left.
  by_cases hpart : part.isInterrupted = true
  · exact .interrupted (hspeech.isInterrupted hpart)
  cases h with
  | interrupted hinterrupted => exact absurd hinterrupted hpart
  | opening =>
    cases hspeech with
    | stay => exact .opening
    | introduce => exact .introduced
  | introduced =>
    cases hspeech with
    | stay => simpa using Told.introduced
    | mute => simpa using Told.quiet
    | drain => exact .interrupted rfl
  | quiet =>
    cases hspeech with
    | stay | callQuietly => simpa [Part.isQuiet] using Told.quiet
    | unmute => simpa using Told.answering []
  | answering =>
    cases hspeech with
    | stay => simpa using Told.answering first
    | answer report => simpa [Part.isQuiet] using Told.signing report first []
  | signing report =>
    cases hspeech with
    | stay => simpa using Told.signing report first second
    | sign => simpa [Part.isQuiet] using Told.signed report first second []
  | signed report =>
    cases hspeech with
    | stay => simpa using Told.signed report first second third

/-- A hook that the sweep does not wait for is heard in the window in which it prints. -/
theorem Told.stray (h : Told p part first second third out err) {heard : List String}
    (hpart : part.isQuiet = true ∨ part.isInterrupted = true ∨ part.window?.isSome = true)
    (hquiet : part.isQuiet = true → heard = []) :
    Told p part (first ++ if part.window? = some .report then heard else [])
      (second ++ if part.window? = some .token then heard else [])
      (third ++ if part.window? = some .linger then heard else []) (out ++ heard)
      (err ++ heard) := by
  cases h with
  | opening | introduced => simp [Part.isQuiet, Part.isInterrupted, Part.window?] at hpart
  | quiet =>
    rw [hquiet rfl]
    simpa using Told.quiet
  | answering => simpa [Part.window?] using Told.answering (first ++ heard)
  | signing report => simpa [Part.window?] using Told.signing report first (second ++ heard)
  | signed report => simpa [Part.window?] using Told.signed report first second (third ++ heard)
  | interrupted hinterrupted => exact .interrupted hinterrupted

end Told

/-- What has been heard of a run by a state, and where its gate stands. -/
structure Followed (p : Plan σ) (s₀ : State σ) (ms : List (Move σ)) (s : State σ) : Prop where
  calm : s.guardian.isCalm = true
  gate : s.worker.gate.suppressed = s.stage.part.isQuiet
  told : Told p s.stage.part (late p .report s₀ ms) (late p .token s₀ ms) (late p .linger s₀ ms)
    (collect p (State.heardOut p) s₀ ms) (collect p State.heardErr s₀ ms)

theorem late_concat {ms : List (Move σ)} (h : s₀.moves p ms = some s) (window : Window)
    (m : Move σ) : late p window s₀ (ms ++ [m]) = late p window s₀ ms ++
      if s.stage.part.window? = some window then s.heardErr m else [] :=
  collect_concat _ h m

theorem late_of_speech {ms : List (Move σ)} (h : s₀.moves p ms = some s) {m : Move σ}
    (hspeech : Speech p s.stage.part (s.toOut p m) (s.toErr m) (s.runs p m) (s.gating m)
      s'.stage.part) (window : Window) : late p window s₀ (ms ++ [m]) = late p window s₀ ms := by
  rw [late_concat h]
  split
  · rename_i hwindow
    rw [State.heardErr, hspeech.window (by rw [hwindow]; rfl), ite_self, List.append_nil]
  · exact List.append_nil _

theorem followed {w : Worker} {o : σ} {ms : List (Move σ)} (hopen : w.gate.suppressed = false)
    (halive : ∀ e ∈ history p (p.start w o) ms, ¬e.FindsDead p)
    (h : (p.start w o).moves p ms = some s) : Followed p (p.start w o) ms s := by
  revert halive
  refine State.moves_induction (motive := fun ms s =>
    (∀ e ∈ history p (p.start w o) ms, ¬e.FindsDead p) → Followed p (p.start w o) ms s) ?_ ?_ h
  · exact fun _ => ⟨rfl, hopen, .opening⟩
  · intro ms m s s' hs hm ih halive
    rw [history_concat hs hm] at halive
    obtain ⟨hcalm, hgate, htold⟩ := ih fun e he => halive e (List.mem_append_left _ he)
    have hcalm' := calm_move hm (halive _ (by simp)) hcalm
    have hmoved := suppressed_move hm (sealed_run hs)
    -- A stray is followed on its own; for all other moves the parts are enough.
    by_cases hstray : s.strays m ≠ []
    · obtain ⟨hpart, hgating, hout, herr, _⟩ := stray_move hm hstray
      have hsame : s.heardOut p m = s.heardErr m := by
        rw [State.heardOut, State.heardErr, hout, herr]
      refine ⟨hcalm', ?_, ?_⟩
      · rw [hmoved, hgate, hpart, hgating]
        rfl
      · rw [hpart, late_concat hs, late_concat hs, late_concat hs, collect_concat _ hs,
          collect_concat _ hs, hsame]
        exact htold.stray (part_of_closed (closed_of_stray hs hm hstray))
          fun hquiet => if_pos (hgate.trans hquiet)
    · have hspeech := move_speech hm (not_not.mp hstray) fun _ => hcalm
      refine ⟨hcalm', by rw [hmoved, hgate, hspeech.isQuiet], ?_⟩
      rw [late_of_speech hs hspeech, late_of_speech hs hspeech, late_of_speech hs hspeech,
        collect_concat _ hs, collect_concat _ hs, State.heardOut, State.heardErr, hgate]
      exact htold.speech hspeech

/-- What the streams have received of a run that was told to stop, whatever hooks that were left
alone print meanwhile. -/
theorem late_lines_heard {w : Worker} {o : σ} {ms : List (Move σ)} {report : Report}
    (hopen : w.gate.suppressed = false) (ha : w.gate.Accepts)
    (halive : ∀ e ∈ history p (p.start w o) ms, ¬e.FindsDead p)
    (h : (p.start w o).moves p ms = some s)
    (hs : s.stage = .finished (.stopped .stopCommand report)) :
    let heard window := late p window (p.start w o) ms
    s.worker.gate.out.received = w.gate.out.received ++ Gate.linesBytes
      (["pid=" ++ p.processId] ++ heard .report ++ ["Exiting...", report.textBy p.clock] ++
        heard .token ++ [p.settings.shutdown.completionToken] ++ heard .linger) ∧
    s.worker.gate.err.received = w.gate.err.received ++ Gate.linesBytes
      (heard .report ++ heard .token ++ heard .linger) := by
  intro heard
  obtain ⟨_, hout, herr⟩ := received_eq ha h
  have htold := (followed hopen halive h).told
  rw [hs] at htold
  generalize hheardOut : collect p (State.heardOut p) (p.start w o) ms = out at htold hout
  generalize hheardErr : collect p State.heardErr (p.start w o) ms = err at htold herr
  cases htold with
  | interrupted hinterrupted => cases hinterrupted
  | signed =>
    refine ⟨hout.trans (congrArg (w.gate.out.received ++ ·) ?_), herr⟩
    rw [introduction, if_pos (supervised_of_stopCommand h hs)]
    simp only [Gate.linesBytes_append, Gate.linesBytes_singleton, lineBytes_closingLines]
    rfl

/-- When the lines of hooks are heard in a run that ends on the stop command, and where.

Only hooks print to the error output, and what is heard of them there is heard on the output as
well. They are heard where one that was left alone prints after the gate was resumed, one that is
called too late among them, and nothing is heard of them exactly if none prints then. If the gate is open at the start and the agent is never
found dead, their lines stand before the report, between the report and the completion token, and
behind the token. -/
theorem hooks_heard_iff_leaks {w : Worker} {o : σ} {ms : List (Move σ)} {report : Report}
    (h : (p.start w o).moves p ms = some s)
    (hending : s.ending? = some (.stopped .stopCommand report)) :
    let heard window := late p window (p.start w o) ms
    (∀ e ∈ history p (p.start w o) ms,
      (e.before.heardErr e.move).Sublist (e.before.heardOut p e.move) ∧
      (e.before.heardErr e.move ≠ [] ↔ e.Leaks)) ∧
    (collect p State.heardErr (p.start w o) ms = [] ↔
      ∀ e ∈ history p (p.start w o) ms, ¬e.Leaks) ∧
    (w.gate.suppressed = false → w.gate.Accepts →
      (∀ e ∈ history p (p.start w o) ms, ¬e.FindsDead p) →
      s.worker.gate.out.received = w.gate.out.received ++ Gate.linesBytes
        (["pid=" ++ p.processId] ++ heard .report ++ ["Exiting...", report.textBy p.clock] ++
          heard .token ++ [p.settings.shutdown.completionToken] ++ heard .linger) ∧
      s.worker.gate.err.received = w.gate.err.received ++ Gate.linesBytes
        (heard .report ++ heard .token ++ heard .linger)) := by
  intro heard
  have hs := ending_stage hending
  have hleaks : ∀ e ∈ history p (p.start w o) ms, e.before.heardErr e.move ≠ [] ↔ e.Leaks :=
    fun e he => hooks_heard h hs he
  refine ⟨fun e he => ⟨heardErr_sublist p e.before e.move, hleaks e he⟩, ?_,
    fun hopen ha halive => late_lines_heard hopen ha halive h hs⟩
  rw [List.eq_nil_iff_forall_not_mem]
  constructor
  · intro hnone e he hleak
    obtain ⟨line, hline⟩ := List.exists_mem_of_ne_nil _ ((hleaks e he).mpr hleak)
    exact hnone line ((mem_collect_iff h).mpr ⟨e, he, hline⟩)
  · intro hno line hline
    obtain ⟨e, he, hline⟩ := (mem_collect_iff h).mp hline
    exact hno e he ((hleaks e he).mp (List.ne_nil_of_mem hline))

/-! A hook waits until it is interrupted and is left alone at its limit. It prints then: during the
sweep, or before the report, between the report and the token, and behind the token. -/

def stuck : Worker :=
  (Worker.fresh (.ofStreams .unlimited .unlimited)).attach "db" ⟨"db", [], .hang⟩

def leftAlone (during first second third : List String) : List (Move Bool) :=
  [Move.outside fun _ => true] ++ List.replicate 8 Move.main ++ [Move.giveUp] ++
    List.replicate 3 Move.main ++ [Move.begin 0 .zero, .main] ++ during.map Move.straggle ++
    [Move.main, .main] ++ first.map Move.straggle ++ [Move.main] ++ second.map Move.straggle ++
    [Move.main] ++ third.map Move.straggle ++ [Move.main]

def soonClosed : List (Move Bool) := leftAlone ["closed"] [] [] []

def slowlyClosed : List (Move Bool) := leftAlone [] ["closing"] ["nearly closed"] ["closed"]

def stuckReport : Report :=
  ⟨⟨0, 0⟩, ⟨10, 0⟩, watchedRun.hookLimit, watchedRun.hookLimit,
    [⟨"db", .timedOut, watchedRun.hookLimit⟩]⟩

theorem alive_leftAlone {during first second third : List String} {s₀ s : State Bool}
    (h : s₀.moves watchedRun (leftAlone during first second third) = some s) :
    ∀ e ∈ history watchedRun s₀ (leftAlone during first second third),
      ¬e.FindsDead watchedRun := by
  rintro e he ⟨hguardian, _⟩
  have hmem := mem_of_mem_history h he
  simp [hguardian, leftAlone] at hmem

theorem hooks_heard_iff_leaks_soon : ∃ s,
    (watchedRun.start stuck false).moves watchedRun soonClosed = some s ∧
    s.ending? = some (.stopped .stopCommand stuckReport) ∧
    (∀ e ∈ history watchedRun (watchedRun.start stuck false) soonClosed, ¬e.Leaks) ∧
    s.worker.gate.out.received = Gate.linesBytes
      ["pid=1", "Exiting...", stuckReport.textBy .masked, "gsa-exit-done"] ∧
    s.worker.gate.err.received = [] := by
  have hrun : ((watchedRun.start stuck false).moves watchedRun soonClosed).bind State.ending? =
        some (.stopped .stopCommand stuckReport) ∧
      collect watchedRun State.heardErr (watchedRun.start stuck false) soonClosed = [] ∧
      late watchedRun .report (watchedRun.start stuck false) soonClosed = [] ∧
      late watchedRun .token (watchedRun.start stuck false) soonClosed = [] ∧
      late watchedRun .linger (watchedRun.start stuck false) soonClosed = [] := by
    decide +kernel
  obtain ⟨hending, hsilent, hreport, htoken, hlinger⟩ := hrun
  obtain ⟨s, hmoves, hs⟩ := Option.bind_eq_some_iff.mp hending
  obtain ⟨_, hnone, hbytes⟩ := hooks_heard_iff_leaks hmoves hs
  obtain ⟨hout, herr⟩ := hbytes rfl
    ⟨OutStream.acceptsAll_unlimited, OutStream.acceptsAll_unlimited⟩ (alive_leftAlone hmoves)
  simp only [hreport, htoken, hlinger] at hout herr
  exact ⟨s, hmoves, hs, hnone.mp hsilent,
    hout.trans ((List.nil_append _).trans (congrArg Gate.linesBytes rfl)), herr⟩

/-- The agent reads what a hook prints before the report, before the completion token, and behind
it. -/
theorem token_not_last : ∃ s,
    (watchedRun.start stuck false).moves watchedRun slowlyClosed = some s ∧
    s.ending? = some (.stopped .stopCommand stuckReport) ∧
    s.worker.gate.out.received = Gate.linesBytes ["pid=1", "closing", "Exiting...",
      stuckReport.textBy .masked, "nearly closed", "gsa-exit-done", "closed"] := by
  have hrun : ((watchedRun.start stuck false).moves watchedRun slowlyClosed).bind State.ending? =
        some (.stopped .stopCommand stuckReport) ∧
      late watchedRun .report (watchedRun.start stuck false) slowlyClosed = ["closing"] ∧
      late watchedRun .token (watchedRun.start stuck false) slowlyClosed = ["nearly closed"] ∧
      late watchedRun .linger (watchedRun.start stuck false) slowlyClosed = ["closed"] := by
    decide +kernel
  obtain ⟨hending, hreport, htoken, hlinger⟩ := hrun
  obtain ⟨s, hmoves, hs⟩ := Option.bind_eq_some_iff.mp hending
  have halive : ∀ e ∈ history watchedRun (watchedRun.start stuck false) slowlyClosed,
      ¬e.FindsDead watchedRun := alive_leftAlone hmoves
  have hout := (late_lines_heard rfl
    ⟨OutStream.acceptsAll_unlimited, OutStream.acceptsAll_unlimited⟩ halive hmoves
    (ending_stage hs)).1
  simp only [hreport, htoken, hlinger] at hout
  exact ⟨s, hmoves, hs, hout.trans ((List.nil_append _).trans (congrArg Gate.linesBytes rfl))⟩

end Run

end SupervisedWorker
