import Mathlib.Data.List.Perm.Basic
import SupervisedWorker.Proofs.Run.Console
import SupervisedWorker.Run.Writes

/-!
# What becomes of writes on their way

A line of the main task takes three moves: a look at the gate, the write, and the step that flushes
and goes on. Taken one after the other they are the step of the run that prints the line. Whatever
comes in between, the run stays in order, since none of the three has to do with hooks.

Results:
1. `happens_of_move`: all that a move of the traffic can do.
2. `moves_steps`, `moves_at_once`: a run is the traffic in which nothing comes between a look and its
   write.
3. `Happens.sealing`, `Happens.passage`: the traffic keeps a run in order, and takes it along the same
   ways.
4. `Happens.drains`: through a suppressed gate only that comes which has passed it before.
-/

namespace SupervisedWorker

namespace Run

variable {σ : Type} {p : Plan σ} {show? : EntryLine}

/-! ## 1. Moves -/

/-- The step of the run that prints the line of its stage. -/
theorem mainStep_speech {s : State σ} {line : String} {next : Stage}
    (h : s.stage.speech? p = some (line, next)) : mainStep p s = some ((s.say line).goTo next) := by
  unfold mainStep
  cases hs : s.stage with
  | opening =>
    rw [hs, Stage.speech?] at h
    split at h
    · rename_i hsupervised
      cases h
      dsimp only
      rw [if_pos hsupervised]
    · cases h
  | reporting trigger report | signing report =>
    rw [hs] at h
    cases h
    rfl
  | _ =>
    rw [hs] at h
    cases h

namespace Traffic

variable {x y : Traffic σ} {m : Move σ}

/-- What a move of the traffic does. -/
inductive Happens (p : Plan σ) (show? : EntryLine) (x : Traffic σ) : Move σ → Traffic σ → Prop
  /-- The run takes a step of its own. -/
  | ran {m : Run.Move σ} {s : State σ} :
      (m = .main → x.voice ≠ .admitted ∧ (x.voice = .silent ∨ x.run.stage.speech? p = none)) →
      x.run.move p m = some s → Happens p show? x (.step m) (x.carry show? s)
  /-- The main task flushes the line that it has written. -/
  | finished {answer : Except StreamError Unit} {line : String} {next : Stage} :
      x.voice = .written answer → x.run.stage.speech? p = some (line, next) →
      Happens p show? x (.step .main)
        ({ x with voice := .silent }.carry show? ((x.run.settleLine answer).goTo next))
  | looked {line : String} {next : Stage} :
      x.voice = .silent → x.run.stage.speech? p = some (line, next) →
      x.run.worker.gate.suppressed = false →
      Happens p show? x .look { x with voice := .admitted }
  | spoke {line : String} {next : Stage} :
      x.voice = .admitted → x.run.stage.speech? p = some (line, next) →
      Happens p show? x .speak
        { x.withGate (x.run.worker.gate.putLine .out line).2 with
          voice := .written (x.run.worker.gate.putLine .out line).1 }
  | passed {side : Gate.Side} {line : String} :
      x.run.worker.gate.suppressed = false →
      Happens p show? x (.pass side line) { x with passed := x.passed ++ [(side, line)] }
  | landed {number : Nat} {side : Gate.Side} {line : String} :
      x.passed[number]? = some (side, line) →
      Happens p show? x (.land number)
        { x.withGate (x.run.worker.gate.putLine side line).2 with
          passed := x.passed.eraseIdx number }

theorem happens_of_step {m : Run.Move σ} (h : x.step p show? m = some y) :
    Happens p show? x (.step m) y := by
  unfold step at h
  split at h
  · cases h
  · rename_i hvoice hspeech
    cases h
    exact .finished hvoice hspeech
  · rename_i hadmitted hwritten
    obtain ⟨s, hs, rfl⟩ := Option.map_eq_some_iff.mp h
    refine .ran (fun hm => ⟨hadmitted hm, ?_⟩) hs
    cases hvoice : x.voice with
    | silent => exact .inl rfl
    | admitted => exact (hadmitted hm hvoice).elim
    | written answer =>
      refine .inr (Option.eq_none_iff_forall_not_mem.mpr fun speech hspeech => ?_)
      exact hwritten answer speech.1 speech.2 hm hvoice hspeech

/-- All that a move of the traffic can do. -/
theorem happens_of_move (h : x.move p show? m = some y) : Happens p show? x m y := by
  cases m with
  | step m => exact happens_of_step h
  | look =>
    rw [move] at h
    split at h
    · rename_i hvoice hspeech hopen
      cases h
      exact .looked hvoice hspeech hopen
    · cases h
  | speak =>
    rw [move] at h
    split at h
    · rename_i hvoice hspeech
      cases h
      exact .spoke hvoice hspeech
    · cases h
  | pass side line =>
    rw [move] at h
    split at h
    · cases h
    · rename_i hopen
      cases h
      exact .passed (Bool.eq_false_iff.mpr hopen)
  | land number =>
    obtain ⟨⟨side, line⟩, hpassed, rfl⟩ := Option.map_eq_some_iff.mp h
    exact .landed hpassed

/-! ## 2. Runs without a gap -/

/-- A run is the traffic that consists of its steps. -/
theorem moves_steps (p : Plan σ) (show? : EntryLine) (s : State σ)
    (passed : List (Gate.Side × String)) (ms : List (Run.Move σ)) :
    ((⟨s, .silent, passed⟩ : Traffic σ).moves p show? (ms.map .step)).map Traffic.run =
      s.moves p ms := by
  induction ms generalizing s passed with
  | nil => rfl
  | cons m ms ih =>
    have hstep : (⟨s, .silent, passed⟩ : Traffic σ).move p show? (.step m) =
        (s.move p m).map (carry show? ⟨s, .silent, passed⟩) := by
      cases m <;> rfl
    rw [List.map_cons, moves, State.moves, hstep]
    cases s.move p m with
    | none => rfl
    | some t => exact ih t _

/-- The look, the write and the step that flushes are the step that prints the line, if the gate is
open and nothing comes between them. -/
theorem moves_at_once (hvoice : x.voice = .silent)
    (hopen : x.run.worker.gate.suppressed = false) {line : String} {next : Stage}
    (hspeech : x.run.stage.speech? p = some (line, next)) :
    (x.moves p show? [.look, .speak, .step .main]).map Traffic.run = x.run.move p .main := by
  have hline : x.run.worker.gate.writeLine .out line = x.run.worker.gate.putLine .out line := by
    rw [Gate.writeLine, Gate.pass, hopen]
    rfl
  rw [State.move, mainStep_speech hspeech, State.say, hline]
  have hspeech' (gate : Gate) :
      ({ x.run with worker := { x.run.worker with gate } } : State σ).stage.speech? p =
        some (line, next) := hspeech
  simp only [moves, move, hvoice, hspeech, hopen, Option.bind_some, withGate, step, carry,
    Option.map_some]

end Traffic

/-! ## 3. The order of a run -/

theorem speech_phase {stage next : Stage} {line : String}
    (h : stage.speech? p = some (line, next)) : next.phase = stage.phase := by
  cases stage with
  | opening =>
    rw [Stage.speech?] at h
    split at h <;> cases h
    rfl
  | reporting trigger report =>
    cases h
    cases trigger <;> rfl
  | signing report =>
    cases h
    rfl
  | _ => cases h

theorem speech_passage {s s' : State σ} {line : String}
    (h : s.stage.speech? p = some (line, s'.stage)) : Passage p s .main s' := by
  cases hs : s.stage with
  | opening =>
    rw [hs, Stage.speech?] at h
    split at h
    · exact .opened hs (Prod.mk.inj (Option.some.inj h)).2.symm
    · cases h
  | reporting trigger report =>
    rw [hs] at h
    exact .reported hs (Prod.mk.inj (Option.some.inj h)).2.symm
  | signing report =>
    rw [hs] at h
    exact .signed hs (Prod.mk.inj (Option.some.inj h)).2.symm
  | _ =>
    rw [hs] at h
    cases h

/-- Nobody but the main task itself takes it to or from a line. -/
theorem speech_move {s s' : State σ} {m : Run.Move σ} (h : s.move p m = some s') (hm : m ≠ .main) :
    s'.stage.speech? p = s.stage.speech? p := by
  cases move_passage h with
  | elsewhere _ hsame => rw [hsame]
  | begun hs _ hnext | answered hs _ hnext =>
    rw [hs, hnext]
    rfl
  | @joined trigger _ _ _ hs hnext =>
    rw [hs, hnext]
    cases trigger <;> rfl
  | _ => exact absurd rfl hm

namespace Traffic

variable {x y : Traffic σ} {m : Move σ}

/-- The traffic keeps a run in order. -/
theorem Happens.sealing (h : Happens p show? x m y) (hs : x.run.Sealing) : y.run.Sealing := by
  cases h with
  | ran _ hmove => exact sealed_step hmove hs
  | finished _ hspeech =>
    refine hs.quiet ?_ (speech_phase hspeech)
    exact (State.ledger_goTo _ _).trans (State.ledger_settleLine _ _)
  | looked | passed => exact hs
  | spoke | landed => exact hs.quiet rfl rfl

theorem sealing_start (p : Plan σ) (w : Worker) (o : σ) : (start (p.start w o)).run.Sealing :=
  ⟨orderly_start p w o, fun hclosed => by cases hclosed⟩

theorem Happens.passage (h : Happens p show? x m y) :
    y.run.stage = x.run.stage ∨ ∃ m, Passage p x.run m y.run := by
  cases h with
  | ran _ hmove => exact .inr ⟨_, move_passage hmove⟩
  | finished _ hspeech => exact .inr ⟨.main, speech_passage hspeech⟩
  | looked | passed | spoke | landed => exact .inl rfl

/-- Only the run itself moves the monitor's task. -/
theorem Happens.guardian (h : Happens p show? x m y) :
    y.run.guardian = x.run.guardian ∨ ∃ m', m = .step m' ∧ x.run.move p m' = some y.run := by
  cases h with
  | ran _ hmove => exact .inr ⟨_, rfl, hmove⟩
  | finished => exact .inl (State.guardian_settleLine _ _)
  | looked | passed | spoke | landed => exact .inl rfl

end Traffic

/-! ## 4. A suppressed gate -/

end Run

/-- Several lines that the gate has let pass reach their streams. -/
def Gate.putLines (g : Gate) (lines : List (Side × String)) : Gate :=
  lines.foldl (fun g x => (g.putLine x.1 x.2).2) g

theorem Gate.putLines_append (g : Gate) (lines lines' : List (Side × String)) :
    g.putLines (lines ++ lines') = (g.putLines lines).putLines lines' := List.foldl_append

theorem Gate.suppressed_putLine (g : Gate) (side : Side) (line : String) :
    (g.putLine side line).2.suppressed = g.suppressed := by
  cases side <;> rfl

theorem Gate.suppressed_putLines (g : Gate) (lines : List (Side × String)) :
    (g.putLines lines).suppressed = g.suppressed := by
  induction lines generalizing g with
  | nil => rfl
  | cons x lines ih => exact (ih _).trans (Gate.suppressed_putLine g x.1 x.2)

namespace Run.Traffic

variable {x y z : Traffic σ} {m : Move σ}

/-- The line of the main task, if the gate has let it pass and it is not written yet. -/
def admitted (p : Plan σ) (x : Traffic σ) : List (Gate.Side × String) :=
  match x.voice, x.run.stage.speech? p with
  | .admitted, some (line, _) => [(.out, line)]
  | _, _ => []

/-- The lines that the gate has let pass and that have not reached their streams. -/
def underWay (p : Plan σ) (x : Traffic σ) : List (Gate.Side × String) := x.passed ++ x.admitted p

/-- What has happened between two states of the traffic if nothing new has passed the gate: nothing
was shown, and the streams have received some of the lines that were under way, the rest of which is
still under way. -/
structure Drains (p : Plan σ) (x y : Traffic σ) : Prop where
  shown : y.run.worker.shown = x.run.worker.shown
  received : ∃ lines, y.run.worker.gate = x.run.worker.gate.putLines lines ∧
    (lines ++ y.underWay p).Perm (x.underWay p)

theorem Drains.refl (p : Plan σ) (x : Traffic σ) : x.Drains p x := ⟨rfl, [], rfl, .refl _⟩

theorem Drains.trans (h : x.Drains p y) (h' : y.Drains p z) : x.Drains p z := by
  obtain ⟨hshown, lines, hgate, hperm⟩ := h
  obtain ⟨hshown', lines', hgate', hperm'⟩ := h'
  refine ⟨hshown'.trans hshown, lines ++ lines', ?_, ?_⟩
  · rw [hgate', hgate, Gate.putLines_append]
  · rw [List.append_assoc]
    exact (hperm'.append_left lines).trans hperm

theorem Drains.suppressed (h : x.Drains p y) :
    y.run.worker.gate.suppressed = x.run.worker.gate.suppressed := by
  obtain ⟨_, lines, hgate, _⟩ := h
  rw [hgate, Gate.suppressed_putLines]

theorem passed_carry {s : State σ} (h : s.worker.shown = x.run.worker.shown) (voice : Voice) :
    ({ x with voice }.carry show? s).passed = x.passed := by
  rw [carry, h, List.drop_length]
  exact List.append_nil _

/-- What the run does under a suppressed gate shows nothing. -/
theorem Drains.of_run {s : State σ} {voice : Voice}
    (hgate : s.worker.gate = x.run.worker.gate) (hshown : s.worker.shown = x.run.worker.shown)
    (hadmitted : ({ x with voice }.carry show? s).admitted p = x.admitted p) :
    x.Drains p ({ x with voice }.carry show? s) := by
  refine ⟨hshown, [], hgate, ?_⟩
  rw [List.nil_append, underWay, hadmitted, passed_carry hshown]
  exact .refl _

/-- While the gate is suppressed and the run does not resume it, nothing new passes. -/
theorem Happens.drains (h : Happens p show? x m y) (hsealing : x.run.Sealing)
    (hsuppressed : x.run.worker.gate.suppressed = true)
    (hstays : ∀ m', m = .step m' → x.run.gating m' ≠ some false) : x.Drains p y := by
  cases h with
  | @ran m' s hmain hmove =>
    have hadmitted : (x.carry show? s).admitted p = x.admitted p := by
      unfold admitted
      cases hvoice : x.voice with
      | silent | written => simp only [carry, hvoice]
      | admitted =>
        have hm : m' ≠ .main := fun heq => (hmain heq).1 hvoice
        simp only [carry, hvoice, speech_move hmove hm]
    have hconsole := move_console hmove hsealing
    cases hg : x.run.gating m' with
    | none =>
      rw [hg] at hconsole
      obtain ⟨hgate, hshown⟩ := hconsole.suppressed hsuppressed
      exact .of_run hgate hshown hadmitted
    | some b =>
      rw [hg] at hconsole
      cases b with
      | true =>
        refine .of_run ?_ (by rw [hconsole]) hadmitted
        rw [hconsole, ← hsuppressed]
      | false => exact absurd hg (hstays m' rfl)
  | @finished answer line next hvoice hspeech =>
    obtain ⟨hgate, hshown⟩ := (settleLine_prints answer x.run).suppressed hsuppressed
    refine .of_run hgate hshown ?_
    simp only [admitted, carry, hvoice]
  | looked _ _ hopen | passed hopen =>
    rw [hsuppressed] at hopen
    cases hopen
  | @spoke line next hvoice hspeech =>
    refine ⟨rfl, [(.out, line)], rfl, ?_⟩
    simp only [underWay, admitted, withGate, hvoice, hspeech, List.append_nil]
    exact List.perm_append_comm
  | @landed number side line hpassed =>
    refine ⟨rfl, [(side, line)], rfl, ?_⟩
    obtain ⟨hlt, hget⟩ := List.getElem?_eq_some_iff.mp hpassed
    show ((side, line) :: x.passed.eraseIdx number ++ x.admitted p).Perm (x.passed ++ x.admitted p)
    rw [← hget]
    exact (List.getElem_cons_eraseIdx_perm hlt).append_right (x.admitted p)

end Run.Traffic

end SupervisedWorker
