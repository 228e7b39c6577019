import SupervisedWorker.Proofs.Console.Gate
import SupervisedWorker.Proofs.Hook.Sealed

/-!
# What hooks print

A hook prints lines to both streams of the console. On a sealed registry these are the lines of its
own script, since nothing that it does calls another hook.

Results:
1. `Prints.trans`: what was printed, one thing after the other.
2. `actAll_prints`: a hook prints the lines of its script, and none of its acts fails.
3. `step_prints`, `begin_prints`: a step of a sweep prints nothing, and a thread that starts on a hook
   prints the lines of the hook.
-/

namespace SupervisedWorker

open Sweep

/-! ## 1. Printing -/

namespace Worker

/-- What a worker that prints lines shows of them: nothing at all while its gate is suppressed, and
everything if the gate is open and its streams accept it. -/
structure Prints (w w' : Worker) (out err : List String) : Prop where
  position : w'.gate.suppressed = w.gate.suppressed
  suppressed : w.gate.suppressed = true → w'.gate = w.gate ∧ w'.shown = w.shown
  takes : w.gate.Accepts → w.gate.Takes w'.gate out err

variable {w w' w'' : Worker} {out out' err err' : List String}

/-- Nothing is printed where the gate stays as it is and a suppressed one prevents the rest. -/
theorem Prints.of_gate (hgate : w'.gate = w.gate)
    (hshown : w.gate.suppressed = true → w'.shown = w.shown) : Prints w w' [] [] := by
  refine ⟨congrArg Gate.suppressed hgate, fun h => ⟨hgate, hshown h⟩, fun h => ?_⟩
  rw [hgate]
  exact .refl h

theorem Prints.refl (w : Worker) : Prints w w [] [] := .of_gate rfl fun _ => rfl

theorem Prints.trans (h : Prints w w' out err) (h' : Prints w' w'' out' err') :
    Prints w w'' (out ++ out') (err ++ err') := by
  refine ⟨h'.position.trans h.position, ?_, ?_⟩
  · intro hs
    obtain ⟨hgate, hshown⟩ := h.suppressed hs
    obtain ⟨hgate', hshown'⟩ := h'.suppressed (by rw [hgate, hs])
    exact ⟨hgate'.trans hgate, hshown'.trans hshown⟩
  · intro ha
    exact (h.takes ha).trans (h'.takes (h.takes ha).accepts)

theorem write_prints (e : JournalEntry) (w : Worker) : Prints w (w.write e) [] [] :=
  .of_gate rfl fun h => if_pos h

/-- A line for both streams gets through or is discarded, and either is a success. -/
theorem printBoth_prints (line : String) (w : Worker) :
    Prints w (w.printBoth line).2 [line] [line] ∧
      (w.gate.Accepts → (w.printBoth line).1 = .ok ()) := by
  refine ⟨⟨?_, ?_, ?_⟩, ?_⟩
  · have hout : (w.gate.writeLine .out line).2.suppressed = w.gate.suppressed :=
      Gate.pass_suppressed ..
    unfold printBoth
    split <;> rename_i heq <;> rw [heq] at hout
    · exact hout
    · exact (Gate.pass_suppressed ..).trans hout
  · intro hs
    have hsame : w.printBoth line = (.ok (), w) := by
      rw [printBoth, Gate.writeLine_suppressed hs]
      dsimp only
      rw [Gate.writeLine_suppressed hs]
    rw [hsame]
    exact ⟨rfl, rfl⟩
  all_goals
    intro ha
    obtain ⟨g, hout, htakes⟩ := Gate.writeLine_takes ha .out line
    obtain ⟨g', herr, htakes'⟩ := Gate.writeLine_takes htakes.accepts .err line
    rw [printBoth, hout]
    dsimp only
    rw [herr]
  exact htakes.trans htakes'

end Worker

/-! ## 2. Acts -/

/-- The lines that an act prints. -/
def HookAct.lines : HookAct → List String
  | .print line => [line]
  | _ => []

namespace HookScript

open Worker

/-- The lines that a hook prints, in order. -/
def lines (script : HookScript) : List String := script.acts.flatMap HookAct.lines

theorem act_prints {w : Worker} (hw : w.IsSealed) (limit : Duration) (depth : Nat) (a : HookAct) :
    let x := act (sweepNested limit depth) a w
    Prints w x.2.2 a.lines a.lines ∧ (w.gate.Accepts → x.2.1 = none) := by
  cases a with
  | register name => exact ⟨.of_gate rfl fun _ => rfl, fun _ => rfl⟩
  | deregister number =>
    simp only [act, Worker.deregister]
    cases w.numbered[number]? with
    | none => exact ⟨.refl w, fun _ => rfl⟩
    | some id => exact ⟨.of_gate rfl fun _ => rfl, fun _ => rfl⟩
  | sweep =>
    simp only [act, (sweepNested_sealed hw limit depth).1]
    exact ⟨.refl w, fun _ => trivial⟩
  | fireGuard =>
    simp only [act, fireGuardBy_sealed hw]
    exact ⟨.refl w, fun _ => trivial⟩
  | print line =>
    obtain ⟨hprints, hok⟩ := printBoth_prints line w
    simp only [act]
    rcases hp : w.printBoth line with ⟨e | _, w'⟩ <;> rw [hp] at hprints hok
    · refine ⟨hprints, fun ha => ?_⟩
      cases hok ha
    · exact ⟨hprints, fun _ => rfl⟩

/-- A hook prints the lines of its script, and no act fails where the streams accept everything. -/
theorem actAll_prints {w : Worker} (hw : w.IsSealed) (limit : Duration) (depth : Nat)
    (acts : List HookAct) :
    let x := actAll (sweepNested limit depth) acts w
    Prints w x.2.2 (acts.flatMap HookAct.lines) (acts.flatMap HookAct.lines) ∧
      (w.gate.Accepts → x.2.1 = none) := by
  induction acts generalizing w with
  | nil => exact ⟨.refl w, fun _ => rfl⟩
  | cons a acts ih =>
    obtain ⟨hprints, hok⟩ := act_prints hw limit depth a
    have hsealed := (act_sealed hw limit depth a).isSealed hw
    rw [actAll, List.flatMap_cons]
    rcases ha : act (sweepNested limit depth) a w with ⟨note, _ | cause, w'⟩ <;>
      rw [ha] at hprints hok hsealed
    · obtain ⟨hprints', hok'⟩ := ih hsealed
      exact ⟨hprints.trans hprints', fun haccepts => hok' (hprints.takes haccepts).accepts⟩
    · -- An act fails only where the streams do not accept everything.
      refine ⟨⟨hprints.position, hprints.suppressed, fun haccepts => ?_⟩, fun haccepts => ?_⟩ <;>
        cases hok haccepts

theorem callBy_prints {w : Worker} (hw : w.IsSealed) (limit : Duration) (depth : Nat)
    (t : HookThread) (h : Hook HookScript) :
    Prints w (callBy (sweepNested limit depth) t h w).2 h.action.lines h.action.lines := by
  have hprints := (actAll_prints hw limit depth h.action.acts).1
  rw [callBy]
  rcases ha : actAll (sweepNested limit depth) h.action.acts w with ⟨notes, _ | cause, w'⟩ <;>
    rw [ha] at hprints <;> exact ⟨hprints.position, hprints.suppressed, hprints.takes⟩

end HookScript

/-! ## 3. Steps of a sweep -/

namespace Sweep

/-- The lines that the hook with the given number prints when a thread starts on it. -/
def Progress.linesOf (p : Progress HookScript) (hook : Nat) : List String :=
  (p.job? hook).elim [] fun job => job.2.action.lines

theorem settle_prints (limit waited : Duration) (t : HookThread) (h : Hook HookScript)
    (box : Option Outcome) (w : Worker) :
    Worker.Prints w (settle Worker.surroundings limit t h waited box w).2.2 [] [] := by
  have hnote : ∀ o w, Worker.Prints w (note Worker.surroundings limit h.name o w) [] [] := by
    intro o w
    unfold note
    split
    · exact Worker.write_prints _ w
    · exact .refl w
  have hinterrupt : Worker.Prints w (Worker.surroundings.interrupt h w) [] [] := by
    unfold Worker.surroundings
    dsimp only
    split
    · exact .of_gate rfl fun _ => rfl
    · exact .refl w
  cases box with
  | some o => exact hnote o w
  | none => exact hinterrupt.trans (hnote .timedOut _)

/-- A step of a sweep prints nothing. -/
theorem step_prints (p : Progress HookScript) (w : Worker) :
    Worker.Prints w (p.step Worker.surroundings w).2 [] [] := by
  rcases hcurrent : p.current with _ | ⟨h, waited⟩
  · rcases hwaiting : p.waiting with _ | ⟨h, rest⟩
    · rw [Progress.step_over hcurrent hwaiting]
      exact .refl w
    · rw [Progress.step_hand hcurrent hwaiting]
      exact .refl w
  · rw [Progress.step_settle hcurrent]
    exact settle_prints ..

variable {p q : Progress HookScript} {hook : Nat} {delay : Duration} {w w' : Worker}

/-- A thread that starts on a hook prints the lines of the hook. -/
theorem begin_prints (hw : w.IsSealed) {limit : Duration} {depth : Nat}
    (hb : p.begin (HookScript.callBy (HookScript.sweepNested limit depth)) hook delay w =
      some (q, w')) : Worker.Prints w w' (p.linesOf hook) (p.linesOf hook) := by
  obtain ⟨t, h, hjob, rfl, _⟩ := Progress.begin_cases hb
  rw [Progress.linesOf, hjob]
  exact HookScript.callBy_prints hw limit depth t h

/-- A thread that starts on a hook leaves a sealed registry sealed. -/
theorem begin_sealed (hw : w.IsSealed) {limit : Duration} {depth : Nat}
    (hb : p.begin (HookScript.callBy (HookScript.sweepNested limit depth)) hook delay w =
      some (q, w')) : w'.IsSealed := by
  obtain ⟨t, h, _, rfl, _⟩ := Progress.begin_cases hb
  exact (HookScript.callBy_sealed hw limit depth t h).1

end Sweep

end SupervisedWorker
