import Mathlib.Data.List.Forall2
import SupervisedWorker.Hook.Script
import SupervisedWorker.Proofs.Hook.Sweep

/-!
# Hooks on a sealed registry

A sweep seals the registry before it calls the first hook. Whatever a hook then does to the
registry, to sweeps and to guards, it is the only one that is called.

Results:
1. `act_sealed`: no act of a hook calls another hook, and the registry stays sealed and empty.
2. `Noted.step`, `Noted.begin`: so the steps of a sweep leave no note, and every thread that starts on
   its hook leaves one, exactly for this hook.
3. `Noted.over`: hence the notes account for all hooks when a sweep is over.
-/

namespace SupervisedWorker

open Sweep

/-! ## 1. Acts -/

namespace Worker

/-- Whether the registry is sealed and empty. -/
def IsSealed (w : Worker) : Prop := w.registry = ⟨[], true⟩

/-- Two workers that differ in nothing that tells which hooks wait and which were called. -/
def SameHooks (w w' : Worker) : Prop := w'.registry = w.registry ∧ w'.calls = w.calls

theorem SameHooks.refl (w : Worker) : SameHooks w w := ⟨rfl, rfl⟩

theorem SameHooks.trans {w₁ w₂ w₃ : Worker} (h : SameHooks w₁ w₂) (h' : SameHooks w₂ w₃) :
    SameHooks w₁ w₃ := ⟨h'.1.trans h.1, h'.2.trans h.2⟩

theorem SameHooks.isSealed {w w' : Worker} (h : SameHooks w w') (hw : w.IsSealed) : w'.IsSealed :=
  h.1.trans hw

theorem write_sameHooks (e : JournalEntry) (w : Worker) : SameHooks w (w.write e) := ⟨rfl, rfl⟩

theorem printBoth_sameHooks (line : String) (w : Worker) : SameHooks w (w.printBoth line).2 := by
  rw [printBoth]
  rcases w.gate.writeLine .out line with ⟨_ | _, gate⟩ <;> exact ⟨rfl, rfl⟩

theorem register_sealed {w : Worker} (hw : w.IsSealed) (name : String) (script : HookScript) :
    SameHooks w (w.register name script).2 := by
  refine ⟨?_, rfl⟩
  show w.registry.register _ = w.registry
  rw [hw]
  rfl

theorem deregister_sealed {w : Worker} (hw : w.IsSealed) (number : Nat) :
    SameHooks w (w.deregister number).2 := by
  rw [deregister]
  cases w.numbered[number]? with
  | none => exact ⟨rfl, rfl⟩
  | some id =>
    refine ⟨?_, rfl⟩
    show (w.registry.deregister id).2 = w.registry
    rw [hw]
    rfl

/-- A guard that goes off over a sealed registry does nothing. -/
theorem fireGuardBy_sealed {w : Worker} (hw : w.IsSealed) (sweep : Worker → Report × Worker) :
    w.fireGuardBy sweep = (none, w) := by
  rw [fireGuardBy, goOff, hw]
  rfl

/-- A guard that goes off over an open registry sweeps it, after an entry about it. -/
theorem fireGuardBy_open {w : Worker} (hw : w.registry.drained = false)
    (sweep : Worker → Report × Worker) :
    (w.fireGuardBy sweep).2 = (sweep (w.write (guardEntry w.registry.size))).2 := by
  have hlooks : ExitGuard.armed.looks w.registry = true := by
    rw [ExitGuard.looks, hw]
    rfl
  rw [fireGuardBy, goOff, if_pos hlooks]

end Worker

namespace HookScript

open Worker

/-- A sweep of a sealed registry calls nothing. -/
theorem sweepNested_sealed {w : Worker} (hw : w.IsSealed) (limit : Duration) (depth : Nat) :
    (sweepNested limit depth w).2 = w ∧ (sweepNested limit depth w).1.records = [] := by
  obtain ⟨registry⟩ := w
  cases hw
  cases depth <;> exact ⟨rfl, rfl⟩

theorem act_sealed {w : Worker} (hw : w.IsSealed) (limit : Duration) (depth : Nat) (a : HookAct) :
    SameHooks w (act (sweepNested limit depth) a w).2.2 := by
  cases a with
  | register name => exact register_sealed hw name _
  | deregister number =>
    have h := deregister_sealed hw number
    rw [act]
    rcases hd : w.deregister number with ⟨_ | _, w'⟩ <;> rw [hd] at h <;> exact h
  | sweep =>
    show SameHooks w (sweepNested limit depth w).2
    rw [(sweepNested_sealed hw limit depth).1]
    exact .refl w
  | fireGuard =>
    show SameHooks w (w.fireGuardBy (sweepNested limit depth)).2
    rw [fireGuardBy_sealed hw]
    exact .refl w
  | print line =>
    have h := printBoth_sameHooks line w
    rw [act]
    rcases hp : w.printBoth line with ⟨_ | _, w'⟩ <;> rw [hp] at h <;> exact h

theorem actAll_sealed {w : Worker} (hw : w.IsSealed) (limit : Duration) (depth : Nat)
    (acts : List HookAct) : SameHooks w (actAll (sweepNested limit depth) acts w).2.2 := by
  induction acts generalizing w with
  | nil => exact .refl w
  | cons a acts ih =>
    have h := act_sealed hw limit depth a
    rw [actAll]
    rcases ha : act (sweepNested limit depth) a w with ⟨note, _ | cause, w'⟩
    · rw [ha] at h
      exact h.trans (ih (h.isSealed hw))
    · rw [ha] at h
      exact h

/-- Calling a hook leaves its own note and no other. -/
theorem callBy_sealed {w : Worker} (hw : w.IsSealed) (limit : Duration) (depth : Nat)
    (t : HookThread) (h : Hook HookScript) :
    let w' := (callBy (sweepNested limit depth) t h w).2
    w'.IsSealed ∧ ∃ note, w'.calls = w.calls ++ [note] ∧
      ∃ tail, note = h.action.label ++ "@" ++ t.name ++ tail := by
  have hacts := actAll_sealed hw limit depth h.action.acts
  rw [callBy]
  rcases ha : actAll (sweepNested limit depth) h.action.acts w with ⟨notes, _ | cause, w'⟩ <;>
    rw [ha] at hacts <;>
    exact ⟨hacts.isSealed hw, _, by rw [← hacts.2], notes, rfl⟩

end HookScript

/-! ## 2. Steps of a sweep -/

namespace Sweep

/-- Whether a note is that of a call. -/
def NoteOf (x : HookThread × Hook HookScript) (note : String) : Prop :=
  ∃ tail, note = x.2.action.label ++ "@" ++ x.1.name ++ tail

/-- A sweep of a sealed registry that is under way, and a note for every call that was made; the
notes that were there before it are `base`. -/
structure Noted (base : List String) (limit : Duration) (hooks : List (Hook HookScript))
    (p : Progress HookScript) (w : Worker) : Prop where
  isSealed : w.IsSealed
  calls : ∃ log done last notes, Tracks limit hooks p log done last ∧ w.calls = base ++ notes ∧
    List.Forall₂ NoteOf log.calls notes

/-- A sweep of a sealed registry that is over: it has handed over all of the hooks, in order and each
of them once, and has recorded how they ended. There is a note for every call that was made: these
are the calls of the hooks in order, if every thread started on its hook in time, and each of the
hooks has been called once when every thread has started. -/
structure Swept (base : List String) (limit : Duration) (hooks : List (Hook HookScript))
    (p : Progress HookScript) (w : Worker) : Prop where
  isSealed : w.IsSealed
  isOver : p.isOver = true
  calls : ∃ handed log notes, Account limit hooks handed log p.queued ∧
    p.records = handed.map (Handed.record limit) ∧ w.calls = base ++ notes ∧
    List.Forall₂ NoteOf log.calls notes ∧
    ((∀ c ∈ handed, c.begun.isSome) → log.calls = handed.map Handed.job) ∧
    ((∀ job ∈ p.queued, job = none) → log.calls.Perm (handed.map Handed.job))

variable {base : List String} {limit : Duration} {hooks : List (Hook HookScript)}
  {p q : Progress HookScript} {w w' : Worker}

theorem settle_sameHooks (limit waited : Duration) (t : HookThread) (h : Hook HookScript)
    (box : Option Outcome) (w : Worker) :
    Worker.SameHooks w (settle Worker.surroundings limit t h waited box w).2.2 := by
  have hnote : ∀ o w, Worker.SameHooks w (note Worker.surroundings limit h.name o w) := by
    intro o w
    unfold note
    split
    · exact Worker.write_sameHooks _ w
    · exact .refl w
  have hinterrupt : Worker.SameHooks w (Worker.surroundings.interrupt h w) := by
    unfold Worker.surroundings
    dsimp only
    split
    · exact ⟨rfl, rfl⟩
    · exact .refl w
  cases box with
  | some o => exact hnote o w
  | none => exact hinterrupt.trans (hnote .timedOut _)

theorem noted_start (hw : w.IsSealed) (started : Timestamp) (limit : Duration)
    (hooks : List (Hook HookScript)) :
    Noted w.calls limit hooks (.start started limit hooks) w :=
  ⟨hw, [], [], none, [], tracks_start started limit hooks, by simp, .nil⟩

/-- Nobody but the sweep matters as long as the notes and the registry stay as they are. -/
theorem Noted.sameHooks (hn : Noted base limit hooks p w) (h : Worker.SameHooks w w') :
    Noted base limit hooks p w' := by
  obtain ⟨hw, log, done, last, notes, ht, hcalls, hnotes⟩ := hn
  exact ⟨h.isSealed hw, log, done, last, notes, ht, h.2.trans hcalls, hnotes⟩

theorem Noted.answer {hook : Nat} {outcome : Outcome} (hn : Noted base limit hooks p w)
    (h : p.deliver hook outcome = some q) : Noted base limit hooks q w := by
  obtain ⟨hw, log, done, last, notes, ht, hrest⟩ := hn
  exact ⟨hw, log, done, last, notes, ht.answer h, hrest⟩

/-- A step of the sweep calls no hook. -/
theorem step_sameHooks (p : Progress HookScript) (w : Worker) :
    Worker.SameHooks w (p.step Worker.surroundings w).2 := by
  rcases hcurrent : p.current with _ | ⟨h, waited⟩
  · rcases hwaiting : p.waiting with _ | ⟨h, rest⟩
    · rw [Progress.step_over hcurrent hwaiting]
      exact .refl w
    · rw [Progress.step_hand hcurrent hwaiting]
      exact .refl w
  · rw [Progress.step_settle hcurrent]
    exact settle_sameHooks ..

theorem Noted.step (hn : Noted base limit hooks p w) :
    Noted base limit hooks (p.step Worker.surroundings w).1 (p.step Worker.surroundings w).2 := by
  have hsame := step_sameHooks p w
  obtain ⟨hw, log, done, last, notes, ht, hcalls, hnotes⟩ := hn
  cases last with
  | some c =>
    let call : Call HookScript Worker := HookScript.callBy (HookScript.sweepNested limit 0)
    have hlog : Log.calls ((Turn.sweep : Turn Worker).log call p w) = [] := by
      rw [Turn.log, ht.current]
      dsimp only [Option.map_some]
      split <;> rfl
    refine ⟨hsame.isSealed hw, _, _, none, notes, ht.settle _ call w, hsame.2.trans hcalls, ?_⟩
    rwa [Log.calls_append, hlog, List.append_nil]
  | none =>
    refine ⟨hsame.isSealed hw, log, done, ?_⟩
    rcases hwaiting : p.waiting with _ | ⟨h, rest⟩
    · rw [Progress.step_over ht.current hwaiting]
      exact ⟨none, notes, ht, hcalls, hnotes⟩
    · exact ⟨_, notes, ht.hand _ hwaiting w, hsame.2.trans hcalls, hnotes⟩

/-- A thread that starts on its hook leaves a note, also if it was left alone. -/
theorem Noted.begin (hn : Noted base limit hooks p w) (limit' : Duration) (depth : Nat)
    {hook : Nat} {delay : Duration}
    (hb : p.begin (HookScript.callBy (HookScript.sweepNested limit' depth)) hook delay w =
      some (q, w')) : Noted base limit hooks q w' := by
  obtain ⟨hw, log, done, last, notes, ht, hcalls, hnotes⟩ := hn
  obtain ⟨t, h, hjob, rfl, hcase⟩ := Progress.begin_cases hb
  obtain ⟨hsealed, note, hnote, htail⟩ := HookScript.callBy_sealed hw limit' depth t h
  -- Late or not, the log has the same call in the end.
  obtain ⟨log', last', ht', hlog⟩ : ∃ log' last', Tracks limit hooks q log' done last' ∧
      log'.calls = log.calls ++ [(t, h)] := by
    let reply := (HookScript.callBy (HookScript.sweepNested limit' depth) t h w).1
    rcases hcase with ⟨hlate, rfl⟩ | ⟨hwait, hdelay, rfl⟩
    · exact ⟨_, last, ht.forsake hjob hlate reply, Log.calls_append ..⟩
    · exact ⟨_, _, (ht.begin hjob hwait hdelay reply).2, Log.calls_append ..⟩
  refine ⟨hsealed, log', done, last', notes ++ [note], ht', ?_, ?_⟩
  · rw [hnote, hcalls, List.append_assoc]
  · rw [hlog]
    exact List.rel_append hnotes (.cons htail .nil)

/-- What happens to hooks that were left alone changes nothing in what a sweep that is over
reports. -/
theorem Noted.begin_over (hn : Noted base limit hooks p w) (hover : p.isOver = true)
    {call : Call HookScript Worker} {hook : Nat} {delay : Duration}
    (hb : p.begin call hook delay w = some (q, w')) :
    q.isOver = true ∧ q.report = p.report := by
  obtain ⟨_, _, _, _, _, ht, _⟩ := hn
  rw [ht.begin_over call hover hb]
  exact ⟨hover, rfl⟩

theorem Noted.over (hn : Noted base limit hooks p w) (h : p.isOver = true) :
    Swept base limit hooks p w := by
  obtain ⟨hw, log, done, last, notes, ht, hcalls, hnotes⟩ := hn
  obtain ⟨rfl, haccount⟩ := ht.over h
  exact ⟨hw, h, done, log, notes, haccount, ht.records, hcalls, hnotes, haccount.calls_eq,
    haccount.calls_perm⟩

end Sweep

end SupervisedWorker
