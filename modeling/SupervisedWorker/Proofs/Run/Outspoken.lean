import SupervisedWorker.Proofs.Console.Filling
import SupervisedWorker.Proofs.Run.AlikeWrites
import SupervisedWorker.Proofs.Run.Protocol

/-!
# What a run says and what its output receives

Where hooks print nothing, only the main task has lines for the output, and it attempts every one of
them when it is due, whatever became of those before. The output receives what fits of the lines that
the gate lets through, its own and those of others.

Results:
1. `said_move`, `lines_move`: which lines a run has attempted to print follows from where its main
   task stands, and every one of them is attempted in full.
2. `fills_move`: the output receives what fits of the lines that the gate lets through.
3. `Happens.attempts`, `Happens.fills`, `outspoken`: the same about the traffic, where looks and
   writes are apart.
4. `blind_attempts`, `blind_offers`, `blind_hands`: the main task does the same before any console.
-/

namespace SupervisedWorker

namespace Run

variable {σ : Type} {p : Plan σ} {s s' : State σ}

open State

/-! ## 1. The lines -/

/-- What a move does to the output where hooks print nothing: it leaves the stream alone, or it
attempts to print one line. -/
inductive Said (p : Plan σ) (s : State σ) (m : Move σ) (s' : State σ) : Prop
  | nothing : s.toOut p m = [] → s'.worker.gate.out = s.worker.gate.out → Said p s m s'
  | line (line : String) : s.toOut p m = [line] → s'.worker = (s.say line).worker → Said p s m s'

theorem gate_write (e : JournalEntry) (s : State σ) :
    (s.write e).worker.gate = s.worker.gate := rfl

theorem gate_record (reason : String) (s : State σ) :
    (s.record reason).worker.gate = s.worker.gate :=
  State.foldl_write (f := fun s : State σ => s.worker.gate) gate_write _ _

theorem linesOf_silent {progress : Sweep.Progress HookScript} (h : AllSilent progress.toCome)
    (hook : Nat) : progress.linesOf hook = [] := by
  unfold Sweep.Progress.linesOf
  cases hjob : progress.job? hook with
  | none => rfl
  | some job => exact h job.2 (Sweep.mem_toCome_of_job hjob)

theorem silent_runs (hs : s.IsSilent) (m : Move σ) : hookLines (s.runs p m) = [] := by
  refine List.flatMap_eq_nil_iff.mpr fun next hnext => ?_
  obtain ⟨c, hc, rfl⟩ := List.mem_map.mp hnext
  unfold State.calls at hc
  split at hc
  · split at hc
    · rename_i trigger progress hstage
      split at hc
      · obtain ⟨job, hjob, rfl⟩ := List.mem_map.mp hc
        exact hs.toCome progress (State.sweep?_of_sweeping hstage) job.2
          (Sweep.mem_toCome_of_job (Option.mem_toList.mp hjob))
      · cases hc
    · cases hc
  · cases hc

theorem silent_strays (hs : s.IsSilent) {m : Move σ} (hm : m.IsSilent) : s.strays m = [] := by
  cases m with
  | begin hook delay =>
    simp only [State.strays]
    cases hsweep : s.sweep? with
    | none => rfl
    | some progress =>
      rw [Option.elim_some, linesOf_silent (hs.toCome progress hsweep), ite_self]
  | straggle line => cases hm
  | _ => rfl

theorem mainStep_said (h : mainStep p s = some s') : Said p s .main s' := by
  unfold mainStep at h
  cases hstage : s.stage with
  | opening =>
    rw [hstage] at h
    cases h
    cases hsup : p.role.isSupervised with
    | true => exact .line _ (by simp [State.toOut, hstage, hsup]) rfl
    | false => exact .nothing (by simp [State.toOut, hstage, hsup]) rfl
  | reporting trigger report | signing report =>
    rw [hstage] at h
    cases h
    exact .line _ (by simp only [State.toOut, hstage]) rfl
  | sweeping trigger progress =>
    rw [hstage] at h
    cases h
    refine .nothing (by simp only [State.toOut, hstage]) ?_
    unfold sweep
    split
    · rfl
    · exact congrArg Gate.out (Sweep.step_silent (.refl s.worker) progress).2.2
  | booting =>
    rw [hstage] at h
    cases h
    exact .nothing (by simp only [State.toOut, hstage]) (congrArg Gate.out (boot_gate p s))
  | watching =>
    rw [hstage] at h
    dsimp only at h
    refine .nothing (by simp only [State.toOut, hstage]) ?_
    split at h
    · cases h
      rfl
    · obtain ⟨w, _, rfl⟩ := Option.map_eq_some_iff.mp h
      rfl
  | polling last =>
    rw [hstage] at h
    obtain ⟨w, _, rfl⟩ := Option.map_eq_some_iff.mp h
    exact .nothing (by simp only [State.toOut, hstage]) (congrArg Gate.out
      (look_frame (f := fun s : State σ => s.worker.gate) (fun _ _ => rfl) (fun _ _ => rfl)
        gate_write w last s))
  | removing last left attempt =>
    rw [hstage] at h
    obtain ⟨w, _, rfl⟩ := Option.map_eq_some_iff.mp h
    exact .nothing (by simp only [State.toOut, hstage]) (congrArg Gate.out
      (remove_frame (f := fun s : State σ => s.worker.gate) (fun _ _ => rfl) (fun _ _ => rfl)
        gate_write w last left attempt s))
  | stopping trigger =>
    rw [hstage] at h
    cases h
    exact .nothing (by simp only [State.toOut, hstage]) (congrArg Gate.out (gate_record stopping s))
  | joining trigger =>
    rw [hstage] at h
    dsimp only at h
    split at h
    · cases h
      exact .nothing (by simp only [State.toOut, hstage]) rfl
    · cases h
  | dozing | released trigger | lingering | raising trigger | quieting | draining trigger
  | resuming report | leaving report =>
    rw [hstage] at h
    cases h
    exact .nothing (by simp only [State.toOut, hstage]) rfl
  | finished ending =>
    rw [hstage] at h
    cases h

theorem guardianStep_said (h : guardianStep p s = some s') : Said p s .guardian s' := by
  refine .nothing rfl ?_
  unfold guardianStep at h
  cases hg : s.guardian with
  | absent | done =>
    rw [hg] at h
    cases h
  | watching phase =>
    rw [hg] at h
    cases h
    exact congrArg Gate.out (monitor_frame (f := fun s : State σ => s.worker.gate)
      (fun _ _ _ _ => rfl) gate_write phase s)
  | recording =>
    rw [hg] at h
    cases h
    exact congrArg Gate.out (gate_record parentLost s)
  | muting | warning | raising =>
    rw [hg] at h
    cases h
    rfl

/-- Whatever became of the lines before it, every line of a run is attempted in full. -/
theorem said_move {m : Move σ} (h : s.move p m = some s') (hs : s.IsSilent) (hm : m.IsSilent) :
    Said p s m s' := by
  cases m with
  | main => exact mainStep_said h
  | guardian => exact guardianStep_said h
  | giveUp =>
    obtain ⟨trigger, _, rfl⟩ := giveUp_passage h
    exact .nothing rfl rfl
  | begin hook delay =>
    have hrel := begin_alike (p := p) (.refl s) hs hook delay
    rw [show s.begin p hook delay = some s' from h] at hrel
    obtain ⟨_, hgate⟩ := hrel
    refine .nothing ?_ (congrArg Gate.out hgate)
    simp only [State.toOut]
    cases hsweep : s.sweep? with
    | none => rfl
    | some progress => exact linesOf_silent (hs.toCome progress hsweep) hook
  | deliver hook outcome =>
    obtain ⟨_, progress, _, _, rfl⟩ := deliver_keeps h
    exact .nothing rfl (by rw [State.worker_keepSweep])
  | record reason =>
    cases h
    exact .nothing rfl (congrArg Gate.out (gate_record reason s))
  | raise =>
    rw [State.move] at h
    split at h <;> cases h
    exact .nothing rfl rfl
  | straggle line => cases hm
  | outside change | register name script =>
    cases h
    exact .nothing rfl rfl
  | deregister number =>
    cases h
    refine .nothing rfl ?_
    unfold Worker.deregister
    split <;> rfl

/-- The lines that a run has attempted to print when it comes to a part, where hooks print
nothing. -/
def Part.lines (p : Plan σ) : Part → List String
  | .opening => []
  | .introduced | .quiet | .hooks | .answering => introduction p
  | .signing report | .closed report => introduction p ++ [closingLines p.clock report]
  | .signed report =>
    introduction p ++ [closingLines p.clock report] ++ [p.settings.shutdown.completionToken]

theorem Speech.lines {part part' : Part} {out err : List String} {hooks : List (Hook HookScript)}
    {gating : Option Bool} (h : Speech p part out err hooks gating part')
    (hsilent : hookLines hooks = []) : part'.lines p = part.lines p ++ out := by
  cases h <;> simp [Part.lines, hsilent]

theorem lines_move {m : Move σ} (h : s.move p m = some s') (hs : s.IsSilent) (hm : m.IsSilent) :
    s'.stage.part.lines p = s.stage.part.lines p ++ s.toOut p m := by
  by_cases hguardian : m = .guardian
  · obtain rfl := hguardian
    rw [(guardianStep_keeps h).2]
    exact (List.append_nil _).symm
  · exact (move_speech h (silent_strays hs hm) fun heq => absurd heq hguardian).lines
      (silent_runs hs m)

/-! ## 2. What the output receives -/

/-- What follows a line that was written adds nothing to the output. -/
theorem settleLine_fills (written : Except StreamError Unit) (s : State σ) :
    s.worker.gate.out.Fills (s.settleLine written).worker.gate.out [] := by
  unfold State.settleLine
  cases written with
  | error e => exact .refl _
  | ok =>
    dsimp only
    split <;> exact Gate.flush_fills s.worker.gate

/-- A line that is printed reaches the output as far as it fits. -/
theorem say_fills (hchunk : s.worker.gate.out.chunk ≠ some 0) (line : String) :
    s.worker.gate.out.Fills (s.say line).worker.gate.out (s.worker.gate.passed [line]) := by
  have hline := Gate.writeLine_fills hchunk line
  unfold State.say
  rcases hw : s.worker.gate.writeLine .out line with ⟨written, g⟩
  rw [hw] at hline
  have hsettled := hline.trans (settleLine_fills written { s with worker.gate := g })
  rwa [List.append_nil] at hsettled

theorem fills_move {m : Move σ} (h : s.move p m = some s') (hs : s.IsSilent) (hm : m.IsSilent)
    (hchunk : s.worker.gate.out.chunk ≠ some 0) :
    s.worker.gate.out.Fills s'.worker.gate.out (Gate.linesBytes (s.heardOut p m)) := by
  cases said_move h hs hm with
  | nothing hnothing hout =>
    rw [State.heardOut, hnothing, ite_self, hout]
    exact .refl _
  | line line hline hworker =>
    rw [State.heardOut, hline, hworker, ← Gate.passed_eq]
    exact say_fills hchunk line

/-! ## 3. Looks and writes apart -/

/-- The line that the main task has for its agent at a stage, if there is one. -/
def State.line (p : Plan σ) (s : State σ) : List String :=
  (s.stage.speech? p).toList.map Prod.fst

theorem line_of_speech {line : String} {next : Stage}
    (h : s.stage.speech? p = some (line, next)) : s.line p = [line] := by
  rw [State.line, h]
  rfl

theorem toOut_main (p : Plan σ) (s : State σ) : s.toOut p .main = s.line p := by
  unfold State.toOut State.line Stage.speech?
  cases s.stage with
  | opening =>
    dsimp only
    split <;> rfl
  | _ => rfl

/-- Only the main task prints to the output, where hooks print nothing. -/
theorem toOut_others (hs : s.IsSilent) {m : Move σ} (hm : m.IsSilent) (hmain : m ≠ .main) :
    s.toOut p m = [] := by
  cases m with
  | main => exact absurd rfl hmain
  | begin hook delay =>
    simp only [State.toOut]
    cases hsweep : s.sweep? with
    | none => rfl
    | some progress => exact linesOf_silent (hs.toCome progress hsweep) hook
  | straggle line => cases hm
  | _ => rfl

theorem speech_lines {stage next : Stage} {line : String}
    (h : stage.speech? p = some (line, next)) :
    next.part.lines p = stage.part.lines p ++ [line] := by
  cases stage with
  | opening =>
    rw [Stage.speech?] at h
    split at h
    · rename_i hsupervised
      cases h
      simp [Stage.part, Part.lines, introduction, hsupervised]
    · cases h
  | reporting trigger report =>
    cases h
    cases trigger <;> rfl
  | signing report =>
    cases h
    rfl
  | _ => cases h

def Voice.isSilent : Voice → Bool
  | .silent => true
  | _ => false

theorem Voice.Alike.isSilent {voice voice' : Voice} (h : voice.Alike voice') :
    voice'.isSilent = voice.isSilent := by
  cases h <;> rfl

namespace Traffic

variable {show? : EntryLine} {x y : Traffic σ} {m : Move σ}

/-- The lines that the main task attempts to print in a move. -/
def attempts (p : Plan σ) (x : Traffic σ) : Move σ → List String
  | .step .main => if x.voice.isSilent then x.run.line p else []
  | .speak => x.run.line p
  | _ => []

/-- The lines of the main task that the output is offered in a move. -/
def offers (p : Plan σ) (x : Traffic σ) : Move σ → List String
  | .step .main =>
    if x.voice.isSilent && !x.run.worker.gate.suppressed then x.run.line p else []
  | .speak => x.run.line p
  | _ => []

/-- The lines of others that reach the output in a move. -/
def lands (x : Traffic σ) : Move σ → List String
  | .land number =>
    match x.passed[number]? with
    | some (.out, line) => [line]
    | _ => []
  | _ => []

/-- The line that the main task has written and not flushed. -/
def unflushed (p : Plan σ) (x : Traffic σ) : List String :=
  match x.voice with
  | .written _ => x.run.line p
  | _ => []

/-- Whether the main task has a line if it has looked at the gate. -/
def Voiced (p : Plan σ) (x : Traffic σ) : Prop :=
  x.voice = .silent ∨ (x.run.stage.speech? p).isSome

theorem Happens.voiced (h : Happens p show? x m y) (hx : x.Voiced p) : y.Voiced p := by
  cases h with
  | @ran m' _ hmain hmove =>
    obtain hsilent | hspeech := hx
    · exact .inl hsilent
    · by_cases heq : m' = .main
      · obtain hsilent | hnone := (hmain heq).2
        · exact .inl hsilent
        · rw [hnone] at hspeech
          cases hspeech
      · exact .inr ((speech_move hmove heq).symm ▸ hspeech)
  | finished => exact .inl rfl
  | looked _ hspeech => exact .inr (Option.isSome_of_eq_some hspeech)
  | spoke _ hspeech => exact .inr (Option.isSome_of_eq_some hspeech)
  | passed | landed => exact hx

/-- In a step that is not the end of a line, the main task has not looked at the gate. -/
theorem Voiced.silent (hx : x.Voiced p)
    (h : x.voice = .silent ∨ x.run.stage.speech? p = none) : x.voice = .silent := by
  obtain hsilent | hnone := h
  · exact hsilent
  · obtain hsilent | hspeech := hx
    · exact hsilent
    · rw [hnone] at hspeech
      cases hspeech

theorem attempts_others {m : Run.Move σ} (h : m ≠ .main) :
    x.attempts p (.step m) = [] ∧ x.offers p (.step m) = [] := by
  cases m with
  | main => exact absurd rfl h
  | _ => exact ⟨rfl, rfl⟩

/-- The lines that were attempted are those that belong to where the main task stands. -/
theorem Happens.attempts (h : Happens p show? x m y) (hx : x.Voiced p) (hs : x.run.IsSilent)
    (hm : m.IsSilent) : y.run.stage.part.lines p ++ y.unflushed p =
      (x.run.stage.part.lines p ++ x.unflushed p) ++ x.attempts p m := by
  cases h with
  | @ran m' s hmain hmove =>
    have hlines := lines_move hmove hs hm
    by_cases heq : m' = .main
    · obtain rfl := heq
      have hsilent := hx.silent (hmain rfl).2
      simp only [carry, unflushed, Traffic.attempts, hsilent, Voice.isSilent, if_true]
      rw [hlines, toOut_main, List.append_nil, List.append_nil]
    · have hline : s.line p = x.run.line p := by
        rw [State.line, State.line, speech_move hmove heq]
      rw [toOut_others hs hm heq, List.append_nil] at hlines
      rw [(attempts_others heq).1, List.append_nil]
      simp only [carry, unflushed, hlines, hline]
  | @finished answer line next hvoice hspeech =>
    simp only [carry, unflushed, Traffic.attempts, hvoice, Voice.isSilent, State.stage_goTo,
      speech_lines hspeech, line_of_speech hspeech, List.append_nil, Bool.false_eq_true, if_false]
  | looked hvoice => simp only [unflushed, Traffic.attempts, hvoice, List.append_nil]
  | @spoke line next hvoice hspeech =>
    have hline : ({ x.run with worker := { x.run.worker with
        gate := (x.run.worker.gate.putLine .out line).2 } } : State σ).line p = x.run.line p := rfl
    simp only [withGate, unflushed, Traffic.attempts, hvoice, hline, List.append_nil]
  | passed | landed => exact (List.append_nil _).symm

/-- The output receives what fits of what it is offered, whoever else writes to it. -/
theorem Happens.fills (h : Happens p show? x m y) (hx : x.Voiced p) (hs : x.run.IsSilent)
    (hm : m.IsSilent) (hchunk : x.run.worker.gate.out.chunk ≠ some 0) :
    x.run.worker.gate.out.Fills y.run.worker.gate.out
      (Gate.linesBytes (x.offers p m ++ x.lands m)) := by
  cases h with
  | @ran m' s hmain hmove =>
    have hfills := fills_move hmove hs hm hchunk
    have hoffers : x.offers p (.step m') ++ x.lands (.step m') = x.run.heardOut p m' := by
      by_cases heq : m' = .main
      · obtain rfl := heq
        simp only [Traffic.offers, lands, hx.silent (hmain rfl).2, Voice.isSilent, Bool.true_and,
          State.heardOut, toOut_main, List.append_nil]
        cases x.run.worker.gate.suppressed <;> rfl
      · simp only [(attempts_others heq).2, lands, State.heardOut, toOut_others hs hm heq, ite_self,
          List.append_nil]
    rw [hoffers]
    exact hfills
  | @finished answer line next hvoice hspeech =>
    simp only [Traffic.offers, lands, hvoice, Voice.isSilent, Bool.false_and, Bool.false_eq_true,
      if_false, List.append_nil]
    exact settleLine_fills answer x.run
  | looked | passed => exact .refl _
  | @spoke line next hvoice hspeech =>
    simp only [Traffic.offers, lands, line_of_speech hspeech, List.append_nil]
    exact (Gate.linesBytes_singleton line).symm ▸ Gate.putLine_fills hchunk line
  | @landed number side line hpassed =>
    simp only [Traffic.offers, lands, hpassed, List.nil_append]
    cases side with
    | out => exact (Gate.linesBytes_singleton line).symm ▸ Gate.putLine_fills hchunk line
    | err => exact .refl _

/-- What a run has attempted to print and what its output has received, where hooks print nothing. -/
structure Outspoken (p : Plan σ) (show? : EntryLine) (x : Traffic σ) (ms : List (Move σ))
    (y : Traffic σ) : Prop where
  silent : y.run.IsSilent
  voiced : y.Voiced p
  lines : y.run.stage.part.lines p ++ y.unflushed p =
    (x.run.stage.part.lines p ++ x.unflushed p) ++ x.collect p show? (Traffic.attempts p) ms
  fills : x.run.worker.gate.out.Fills y.run.worker.gate.out
    (Gate.linesBytes (x.collect p show? (fun x m => x.offers p m ++ x.lands m) ms))

theorem outspoken (hp : p.IsSilent) {ms : List (Move σ)} (hms : ∀ m ∈ ms, m.IsSilent)
    (hx : x.Voiced p) (hs : x.run.IsSilent) (hchunk : x.run.worker.gate.out.chunk ≠ some 0)
    (h : x.moves p show? ms = some y) : Outspoken p show? x ms y := by
  induction ms generalizing x with
  | nil =>
    cases h
    exact ⟨hs, hx, (List.append_nil _).symm, .refl _⟩
  | cons m ms ih =>
    obtain ⟨z, hz, hrest⟩ := Option.bind_eq_some_iff.mp h
    have hm := hms m List.mem_cons_self
    have hhappens := happens_of_move hz
    have hfills := hhappens.fills hx hs hm hchunk
    obtain ⟨hsilent, hvoiced, hlines, hrestFills⟩ :=
      ih (fun m hm => hms m (List.mem_cons_of_mem _ hm)) (hhappens.voiced hx)
        (hhappens.isSilent hp hm hs) (hfills.chunk ▸ hchunk) hrest
    refine ⟨hsilent, hvoiced, ?_, ?_⟩
    · rw [collect, hz, hlines, hhappens.attempts hx hs hm, List.append_assoc, List.append_assoc]
    · rw [collect, hz, Gate.linesBytes_append]
      exact hfills.trans hrestFills

/-! ## 4. What is the same before any console -/

theorem blind_attempts (p : Plan σ) : Blind (Traffic.attempts p) where
  alike {x y m} h _ := by
    have hline : y.run.line p = x.run.line p := by rw [State.line, State.line, h.runs.stage]
    unfold Traffic.attempts
    rw [hline, h.voices.isSilent]
  landing _ _ := rfl

theorem blind_offers (p : Plan σ) : Blind (Traffic.offers p) where
  alike {x y m} h _ := by
    have hline : y.run.line p = x.run.line p := by rw [State.line, State.line, h.runs.stage]
    unfold Traffic.offers
    rw [hline, h.voices.isSilent, h.runs.workers.suppressed]
  landing _ _ := rfl

/-- The hooks that are handed over in a move and called, or waited for in vain. -/
def hands (p : Plan σ) (x : Traffic σ) : Move σ → List (Sweep.Handed HookScript)
  | .step m => x.run.calls p m ++ x.run.misses m
  | _ => []

theorem blind_hands (p : Plan σ) : Blind (hands p) where
  alike {x y m} h hs := by
    cases m with
    | step m =>
      obtain ⟨hcalls, hmisses⟩ := calls_alike (p := p) h.runs hs m
      rw [hands, hands, hcalls, hmisses]
    | _ => rfl
  landing _ _ := rfl

/-- Whether somebody else passes the gate with a line. -/
def Move.isPass : Move σ → Bool
  | .pass .. => true
  | _ => false

/-- Where no entries are shown and nobody else writes, nothing is ever under way to a stream. -/
theorem collect_lands (hshow : ∀ e, show? e = none) {ms : List (Move σ)}
    (hms : ∀ m ∈ ms, m.isPass = false) (hx : x.passed = [])
    (h : x.moves p show? ms = some y) :
    x.collect p show? (fun x m => x.offers p m ++ x.lands m) ms =
      x.collect p show? (Traffic.offers p) ms := by
  induction ms generalizing x with
  | nil => rfl
  | cons m ms ih =>
    obtain ⟨z, hz, hrest⟩ := Option.bind_eq_some_iff.mp h
    have hnone : z.passed = [] ∧ x.lands m = [] := by
      have hcarry (x : Traffic σ) (hx : x.passed = []) (s : State σ) :
          (x.carry show? s).passed = [] := by
        simp [carry, hx, hshow]
      cases happens_of_move hz with
      | ran => exact ⟨hcarry x hx _, rfl⟩
      | finished => exact ⟨hcarry { x with voice := .silent } hx _, rfl⟩
      | looked | spoke => exact ⟨hx, rfl⟩
      | passed => cases hms _ List.mem_cons_self
      | landed hpassed =>
        rw [hx] at hpassed
        cases hpassed
    rw [collect, collect, hz, hnone.2, List.append_nil]
    exact congrArg _ (ih (fun m hm => hms m (List.mem_cons_of_mem _ hm)) hnone.1 hrest)

end Traffic

end Run

end SupervisedWorker
