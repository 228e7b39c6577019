import SupervisedWorker.Proofs.Hook.Reentry

/-!
# Hooks that print nothing

A hook reaches the console only by printing to it. So a hook that prints nothing does the same
whatever console its process has, and leaves the console as it is.

Results:
1. `actAll_silent`: what a hook does that prints nothing, in two processes that differ in their
   consoles only.
2. `step_silent`, `begin_silent`: the same for a step of a sweep, and for a thread that starts on a
   hook.
3. `sweepIn_silent`, `goOff_silent`: the same for whole sweeps, whatever course they take, and for a
   guard that goes off.
-/

namespace SupervisedWorker

open Sweep

/-- Whether no hook of a list prints. -/
def AllSilent (hooks : List (Hook HookScript)) : Prop := ∀ hook ∈ hooks, hook.action.lines = []

/-! ## 1. Processes alike but for their consoles -/

namespace Worker

/-- Two processes that differ only in what their streams are and have received, and in their
journals. -/
inductive Alike (w : Worker) : Worker → Prop
  | console (gate : Gate) (journal shown : Journal) :
      gate.suppressed = w.gate.suppressed → Alike w { w with gate, journal, shown }

variable {w w' w'' : Worker}

theorem Alike.refl (w : Worker) : w.Alike w := .console w.gate w.journal w.shown rfl

theorem Alike.symm (h : w.Alike w') : w'.Alike w := by
  cases h with
  | console gate journal shown hgate => exact .console w.gate w.journal w.shown hgate.symm

theorem Alike.trans (h : w.Alike w') (h' : w'.Alike w'') : w.Alike w'' := by
  cases h with
  | console gate journal shown hgate =>
    cases h' with
    | console gate' journal' shown' hgate' =>
      exact .console gate' journal' shown' (hgate'.trans hgate)

theorem Alike.isSealed (h : w.Alike w') (hw : w.IsSealed) : w'.IsSealed := by
  cases h
  exact hw

theorem Alike.suppressed (h : w.Alike w') : w'.gate.suppressed = w.gate.suppressed := by
  cases h with
  | console gate journal shown hgate => exact hgate

theorem alike_write (e : JournalEntry) (w : Worker) : w.Alike (w.write e) :=
  .console w.gate _ _ rfl

/-- What is written to the journals does not matter. -/
theorem Alike.write (h : w.Alike w') (e e' : JournalEntry) : (w.write e).Alike (w'.write e') :=
  ((alike_write e w).symm.trans h).trans (alike_write e' w')

theorem Alike.attach (h : w.Alike w') (name : String) (script : HookScript) :
    (w.attach name script).Alike (w'.attach name script) := by
  cases h with
  | console gate journal shown hgate => exact .console gate journal shown hgate

theorem Alike.register (h : w.Alike w') (name : String) (script : HookScript) :
    (w.register name script).2.Alike (w'.register name script).2 := by
  cases h with
  | console gate journal shown hgate => exact .console gate journal shown hgate

theorem Alike.deregister (h : w.Alike w') (number : Nat) :
    (w.deregister number).1 = (w'.deregister number).1 ∧
      (w.deregister number).2.Alike (w'.deregister number).2 := by
  cases h with
  | console gate journal shown hgate =>
    unfold Worker.deregister
    cases w.numbered[number]? with
    | none => exact ⟨rfl, .console gate journal shown hgate⟩
    | some id => exact ⟨rfl, .console gate journal shown hgate⟩

end Worker

namespace HookScript

open Worker

variable {w w' : Worker}

theorem act_silent (hw : w.IsSealed) (h : w.Alike w') (limit : Duration) (depth : Nat)
    {a : HookAct} (ha : a.lines = []) :
    let x := act (sweepNested limit depth) a w
    let x' := act (sweepNested limit depth) a w'
    x.1 = x'.1 ∧ (x.2.1 = none ∧ x'.2.1 = none) ∧ x.2.2.Alike x'.2.2 ∧ x.2.2.gate = w.gate := by
  have hw' := h.isSealed hw
  cases a with
  | register name =>
    have hsize : (w.register name ⟨name, [], .succeed⟩).2.registry =
        (w'.register name ⟨name, [], .succeed⟩).2.registry := by
      cases h
      rfl
    simp only [act, hsize]
    exact ⟨trivial, ⟨trivial, trivial⟩, h.register name _, rfl⟩
  | deregister number =>
    obtain ⟨hanswer, halike⟩ := h.deregister number
    have hgate : (w.deregister number).2.gate = w.gate := by
      unfold Worker.deregister
      split <;> rfl
    simp only [act]
    rcases hd : w.deregister number with ⟨answer, v⟩
    rcases hd' : w'.deregister number with ⟨answer', v'⟩
    rw [hd, hd'] at hanswer halike
    rw [hd] at hgate
    cases hanswer
    cases answer <;> exact ⟨rfl, ⟨rfl, rfl⟩, halike, hgate⟩
  | sweep =>
    obtain ⟨hsame, hrecords⟩ := sweepNested_sealed hw limit depth
    obtain ⟨hsame', hrecords'⟩ := sweepNested_sealed hw' limit depth
    simp only [act, Report.size, hsame, hrecords, hsame', hrecords']
    exact ⟨trivial, ⟨trivial, trivial⟩, h, trivial⟩
  | fireGuard =>
    simp only [act, fireGuardBy_sealed hw, fireGuardBy_sealed hw']
    exact ⟨trivial, ⟨trivial, trivial⟩, h, trivial⟩
  | print line => cases ha

/-- What a hook does that prints nothing is the same before any console. -/
theorem actAll_silent (hw : w.IsSealed) (h : w.Alike w') (limit : Duration) (depth : Nat)
    {acts : List HookAct} (hacts : acts.flatMap HookAct.lines = []) :
    let x := actAll (sweepNested limit depth) acts w
    let x' := actAll (sweepNested limit depth) acts w'
    x.1 = x'.1 ∧ (x.2.1 = none ∧ x'.2.1 = none) ∧ x.2.2.Alike x'.2.2 ∧ x.2.2.gate = w.gate := by
  induction acts generalizing w w' with
  | nil => exact ⟨rfl, ⟨rfl, rfl⟩, h, rfl⟩
  | cons a acts ih =>
    rw [List.flatMap_cons, List.append_eq_nil_iff] at hacts
    obtain ⟨hnote, ⟨hnone, hnone'⟩, halike, hgate⟩ := act_silent hw h limit depth hacts.1
    have hsealed := (act_sealed hw limit depth a).isSealed hw
    simp only [actAll]
    rcases ha : act (sweepNested limit depth) a w with ⟨note, cause, v⟩
    rcases ha' : act (sweepNested limit depth) a w' with ⟨note', cause', v'⟩
    rw [ha, ha'] at hnote halike
    rw [ha] at hnone hgate hsealed
    rw [ha'] at hnone'
    cases hnote
    cases hnone
    cases hnone'
    obtain ⟨hnotes, hnones, halike', hgate'⟩ := ih hsealed halike hacts.2
    exact ⟨congrArg (note ++ ·) hnotes, hnones, halike', hgate'.trans hgate⟩

theorem callBy_silent (hw : w.IsSealed) (h : w.Alike w') (limit : Duration) (depth : Nat)
    (t : HookThread) {hook : Hook HookScript} (hhook : hook.action.lines = []) :
    let x := callBy (sweepNested limit depth) t hook w
    let x' := callBy (sweepNested limit depth) t hook w'
    x.1 = x'.1 ∧ x.2.Alike x'.2 ∧ x.2.gate = w.gate := by
  obtain ⟨hnotes, ⟨hnone, hnone'⟩, halike, hgate⟩ := actAll_silent hw h limit depth hhook
  simp only [callBy]
  rcases ha : actAll (sweepNested limit depth) hook.action.acts w with ⟨notes, cause, v⟩
  rcases ha' : actAll (sweepNested limit depth) hook.action.acts w' with ⟨notes', cause', v'⟩
  rw [ha, ha'] at hnotes halike
  rw [ha] at hnone hgate
  rw [ha'] at hnone'
  cases hnotes
  cases hnone
  cases hnone'
  refine ⟨rfl, ?_, hgate⟩
  cases halike with
  | console gate journal shown hposition => exact .console gate journal shown hposition

end HookScript

/-! ## 2. Sweeps -/

namespace Sweep

open Worker HookScript

variable {w w' : Worker}

theorem note_silent (h : w.Alike w') (limit : Duration) (name : String) (o : Outcome) :
    (note Worker.surroundings limit name o w).Alike (note Worker.surroundings limit name o w') ∧
      (note Worker.surroundings limit name o w).gate = w.gate := by
  unfold note
  split
  · exact ⟨h.write _ _, rfl⟩
  · exact ⟨h, rfl⟩

theorem interrupt_silent (h : w.Alike w') (hook : Hook HookScript) :
    (Worker.surroundings.interrupt hook w).Alike (Worker.surroundings.interrupt hook w') ∧
      (Worker.surroundings.interrupt hook w).gate = w.gate := by
  unfold Worker.surroundings
  dsimp only
  split
  · refine ⟨?_, rfl⟩
    cases h with
    | console gate journal shown hgate => exact .console gate journal shown hgate
  · exact ⟨h, rfl⟩

theorem settle_silent (h : w.Alike w') (limit waited : Duration) (t : HookThread)
    (hook : Hook HookScript) (box : Option Outcome) :
    let x := settle Worker.surroundings limit t hook waited box w
    let x' := settle Worker.surroundings limit t hook waited box w'
    x.1 = x'.1 ∧ x.2.1 = x'.2.1 ∧ x.2.2.Alike x'.2.2 ∧ x.2.2.gate = w.gate := by
  cases box with
  | some o => exact ⟨rfl, rfl, note_silent h limit hook.name o⟩
  | none =>
    obtain ⟨halike, hgate⟩ := interrupt_silent h hook
    obtain ⟨halike', hgate'⟩ := note_silent halike limit hook.name .timedOut
    exact ⟨rfl, rfl, halike', hgate'.trans hgate⟩

/-- A step of a sweep is the same before any console. -/
theorem step_silent (h : w.Alike w') (p : Progress HookScript) :
    let x := p.step Worker.surroundings w
    let x' := p.step Worker.surroundings w'
    x.1 = x'.1 ∧ x.2.Alike x'.2 ∧ x.2.gate = w.gate := by
  rcases hcurrent : p.current with _ | ⟨hook, waited⟩
  · rcases hrest : p.waiting with _ | ⟨hook, rest⟩
    · simp only [Progress.step_over hcurrent hrest]
      exact ⟨trivial, h, trivial⟩
    · simp only [Progress.step_hand hcurrent hrest]
      exact ⟨trivial, h, trivial⟩
  · obtain ⟨hrecord, hworker, halike, hgate⟩ :=
      settle_silent h p.limit waited p.worker hook (p.box p.records.length)
    simp only [Progress.step_settle hcurrent, ← hrecord, ← hworker]
    exact ⟨trivial, halike, hgate⟩

/-- The hooks of a sweep on which no thread has started. -/
def Progress.toCome {α : Type} (p : Progress α) : List (Hook α) :=
  p.queued.filterMap (·.map Prod.snd) ++ p.waiting

section

variable {α σ : Type} {around : Surroundings α σ} {call : Call α σ} {p q : Progress α} {s s' : σ}
  {hook : Nat} {delay : Duration}

/-- A step of a sweep lets no hook in. -/
theorem toCome_step (p : Progress α) (s : σ) : (p.step around s).1.toCome = p.toCome := by
  rcases hcurrent : p.current with _ | ⟨next, waited⟩
  · rcases hrest : p.waiting with _ | ⟨next, rest⟩
    · rw [Progress.step_over hcurrent hrest]
    · rw [Progress.step_hand hcurrent hrest]
      simp [Progress.toCome, hrest]
  · rw [Progress.step_settle hcurrent]
    rfl

theorem mem_toCome_of_job {n : Nat} {t : HookThread} {h : Hook α} (hjob : p.job? n = some (t, h)) :
    h ∈ p.toCome := by
  rw [Progress.job?, Option.join_eq_some_iff] at hjob
  refine List.mem_append_left _ (List.mem_filterMap.mpr ?_)
  exact ⟨some (t, h), List.mem_of_getElem? hjob, rfl⟩

/-- Nor does a thread that starts on a hook. -/
theorem mem_toCome_begin (hb : p.begin call hook delay s = some (q, s')) {h : Hook α}
    (hq : h ∈ q.toCome) : h ∈ p.toCome := by
  have hset : h ∈ (p.queued.set hook none).filterMap (·.map Prod.snd) ++ p.waiting := by
    obtain ⟨_, _, _, _, ⟨_, rfl⟩ | ⟨_, _, rfl⟩⟩ := Progress.begin_cases hb <;> exact hq
  rcases List.mem_append.mp hset with hqueued | hwaiting
  · obtain ⟨job, hjob, hh⟩ := List.mem_filterMap.mp hqueued
    rcases List.mem_or_eq_of_mem_set hjob with hjob | rfl
    · exact List.mem_append_left _ (List.mem_filterMap.mpr ⟨job, hjob, hh⟩)
    · cases hh
  · exact List.mem_append_right _ hwaiting

end

/-- A thread that starts on a hook that prints nothing does the same before any console. -/
theorem begin_silent (hw : w.IsSealed) (h : w.Alike w') (limit : Duration) (depth : Nat)
    {p : Progress HookScript} (hsilent : AllSilent p.toCome) (hook : Nat) (delay : Duration) :
    Option.Rel (fun y y' => y.1 = y'.1 ∧ y.2.Alike y'.2 ∧ y.2.gate = w.gate)
      (p.begin (callBy (sweepNested limit depth)) hook delay w)
      (p.begin (callBy (sweepNested limit depth)) hook delay w') := by
  unfold Progress.begin
  cases hjob : p.job? hook with
  | none => exact .none
  | some job =>
    obtain ⟨hreply, halike, hgate⟩ :=
      callBy_silent hw h limit depth job.1 (hsilent job.2 (mem_toCome_of_job hjob))
    dsimp only
    rw [← hreply]
    split
    · exact .some ⟨rfl, halike, hgate⟩
    · split
      · exact .some ⟨rfl, halike, hgate⟩
      · exact .none

end Sweep

/-! ## 3. The guard at the exit -/

/-- Whether nothing is printed in a turn by a hook that was left alone. -/
def HookTurn.IsSilent : HookTurn → Prop
  | .act a => a.lines = []
  | _ => True

/-- Two sweeps over hooks that print nothing, alike but for their consoles; the first has left its
console as it was. -/
structure Sweep.SilentPair (gate : Gate) (x x' : Progress HookScript × Worker) : Prop where
  progress : x.1 = x'.1
  workers : x.2.Alike x'.2
  isSealed : x.2.IsSealed
  toCome : AllSilent x.1.toCome
  gate : x.2.gate = gate

namespace Sweep.SilentPair

variable {gate : Gate} {x x' : Progress HookScript × Worker}

/-- One thing that happens to both keeps them alike. -/
theorem turn (h : SilentPair gate x x') (limit : Duration) {t : HookTurn} (ht : t.IsSilent) :
    SilentPair gate
      ((t.toTurn (Worker.sweep limit)).take Worker.surroundings
        (HookScript.callBy (Worker.sweep limit)) x)
      ((t.toTurn (Worker.sweep limit)).take Worker.surroundings
        (HookScript.callBy (Worker.sweep limit)) x') := by
  obtain ⟨p, w⟩ := x
  obtain ⟨p', w'⟩ := x'
  obtain ⟨hprogress, hworkers, hsealed, hsilent, hgate⟩ := h
  obtain rfl : p = p' := hprogress
  cases t with
  | sweep =>
    obtain ⟨hnext, halike, hkept⟩ := Sweep.step_silent hworkers p
    refine ⟨hnext, halike, (step_sameHooks p w).isSealed hsealed, ?_, hkept.trans hgate⟩
    rw [HookTurn.toTurn, Turn.take, toCome_step]
    exact hsilent
  | begin hook delay =>
    have hrel := Sweep.begin_silent hsealed hworkers limit 2 hsilent hook delay
    let call := HookScript.callBy (HookScript.sweepNested limit 2)
    show SilentPair gate ((p.begin call hook delay w).getD (p, w))
      ((p.begin call hook delay w').getD (p, w'))
    generalize hb : p.begin call hook delay w = y at hrel ⊢
    generalize p.begin call hook delay w' = y' at hrel ⊢
    cases hrel with
    | none => exact ⟨rfl, hworkers, hsealed, hsilent, hgate⟩
    | some h =>
      obtain ⟨hnext, halike, hkept⟩ := h
      exact ⟨hnext, halike, begin_sealed hsealed hb, fun h hh => hsilent h (mem_toCome_begin hb hh),
        hkept.trans hgate⟩
  | answer hook outcome =>
    refine ⟨rfl, hworkers, hsealed, ?_, hgate⟩
    show AllSilent ((p.deliver hook outcome).getD p).toCome
    cases hd : p.deliver hook outcome with
    | none => exact hsilent
    | some q =>
      obtain ⟨_, rfl⟩ := Progress.deliver_eq hd
      exact hsilent
  | act a =>
    obtain ⟨_, _, halike, hkept⟩ := HookScript.act_silent hsealed hworkers limit 2 ht
    exact ⟨rfl, halike, (HookScript.act_sameHooks (Worker.sweep_idles limit) hsealed a).isSealed
      hsealed, hsilent, hkept.trans hgate⟩

theorem playHooks (h : SilentPair gate x x') (limit : Duration) {turns : List HookTurn}
    (hturns : ∀ t ∈ turns, t.IsSilent) :
    SilentPair gate (playHooks (Worker.sweep limit) turns x)
      (playHooks (Worker.sweep limit) turns x') := by
  induction turns generalizing x x' with
  | nil => exact h
  | cons t turns ih =>
    rw [playHooks_cons, playHooks_cons]
    exact ih (h.turn limit (hturns t List.mem_cons_self)) fun t ht =>
      hturns t (List.mem_cons_of_mem _ ht)

end Sweep.SilentPair

namespace Worker

variable {w w' : Worker}

/-- A sweep of the registry in which one thing happens after the other. -/
def sweepIn (limit : Duration) (turns : List HookTurn) (w : Worker) : Report × Worker :=
  let x := playHooks (sweep limit) turns
    (.start ⟨0, 0⟩ limit w.registry.hooks.reverse, w.drained)
  (Sweep.report limit x.1.records, x.2)

/-- A sweep over hooks that print nothing is the same before any console. -/
theorem sweepIn_silent (h : w.Alike w') (hsilent : AllSilent w.registry.hooks) (limit : Duration)
    {turns : List HookTurn} (hturns : ∀ t ∈ turns, t.IsSilent) :
    (w.sweepIn limit turns).1 = (w'.sweepIn limit turns).1 ∧
      (w.sweepIn limit turns).2.Alike (w'.sweepIn limit turns).2 ∧
      (w.sweepIn limit turns).2.gate = w.gate := by
  have hhooks : w'.registry.hooks = w.registry.hooks := by
    cases h
    rfl
  have hdrained : w.drained.Alike w'.drained := by
    cases h with
    | console gate journal shown hgate => exact .console gate journal shown hgate
  have hstart : Sweep.SilentPair w.gate
      (.start ⟨0, 0⟩ limit w.registry.hooks.reverse, w.drained)
      (.start ⟨0, 0⟩ limit w'.registry.hooks.reverse, w'.drained) := by
    refine ⟨by rw [hhooks], hdrained, w.drained_isSealed, ?_, rfl⟩
    intro hook hhook
    exact hsilent hook (List.mem_reverse.mp hhook)
  obtain ⟨hprogress, hworkers, _, _, hgate⟩ := hstart.playHooks limit hturns
  exact ⟨congrArg (fun p : Progress HookScript => Sweep.report limit p.records) hprogress,
    hworkers, hgate⟩

/-- A guard that goes off over hooks that print nothing does the same before any console. -/
theorem goOff_silent (h : w.Alike w') (hsilent : AllSilent w.registry.hooks) (limit : Duration)
    {turns : List HookTurn} (hturns : ∀ t ∈ turns, t.IsSilent) (guard : ExitGuard) :
    (w.goOff (sweepIn limit turns) guard).1 = (w'.goOff (sweepIn limit turns) guard).1 ∧
      (w.goOff (sweepIn limit turns) guard).2.Alike (w'.goOff (sweepIn limit turns) guard).2 ∧
      (w.goOff (sweepIn limit turns) guard).2.gate = w.gate := by
  have hregistry : w'.registry = w.registry := by
    cases h
    rfl
  unfold goOff
  rw [hregistry]
  split
  · let e := guardEntry w.registry.size
    obtain ⟨hreport, hworkers, hgate⟩ := sweepIn_silent (h.write e e) hsilent limit hturns
    exact ⟨congrArg some hreport, hworkers, hgate⟩
  · exact ⟨rfl, h, rfl⟩

end Worker

end SupervisedWorker
