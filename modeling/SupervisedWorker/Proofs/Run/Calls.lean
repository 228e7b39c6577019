import SupervisedWorker.Proofs.Hook.Printing
import SupervisedWorker.Proofs.Run.Frame
import SupervisedWorker.Proofs.Run.History

/-!
# The calls of a run

A run hands its hooks to the workers of its sweep, one after the other, and a hook is called when a
thread starts on it. The report keeps one record of every hook that was handed over: of what became
of it by its own reply, or of a wait in which no thread started on it.

Results:
1. `tells_move`: what the sweep has kept of the hooks, after one more move.
2. `records_eq`, `hookNames_eq`: what the report says about the hooks of a run.
-/

namespace SupervisedWorker

namespace Run

open Sweep

variable {σ : Type} {p : Plan σ} {s s' s₀ : State σ}

/-! ## 1. Calls -/

/-- The hook that a thread starts on in a move while the sweep waits for it, with the reply. -/
def State.calls (p : Plan σ) (s : State σ) : Move σ → List (Handed HookScript)
  | .begin hook delay =>
    match s.stage with
    | .sweeping _ progress =>
      if progress.records.length ≤ hook ∧ delay ≤ progress.limit then
        (progress.job? hook).toList.map fun job =>
          ⟨job.1, job.2, some (delay, (call p job.1 job.2 s.worker).1)⟩
      else []
    | _ => []
  | _ => []

/-- The hook that no thread has started on when a move ends the wait for it. -/
def State.misses (s : State σ) : Move σ → List (Handed HookScript)
  | .main =>
    match s.stage with
    | .sweeping _ progress =>
      if progress.current.isSome then
        (progress.job? progress.records.length).toList.map fun job => ⟨job.1, job.2, none⟩
      else []
    | _ => []
  | _ => []

/-- The hooks that were handed over and called, or waited for in vain, in order. -/
def handed (p : Plan σ) (s₀ : State σ) (ms : List (Move σ)) : List (Handed HookScript) :=
  collect p (fun s m => s.calls p m ++ s.misses m) s₀ ms

/-- The hooks that a move calls while the sweep waits for them. -/
def State.runs (p : Plan σ) (s : State σ) (m : Move σ) : List (Hook HookScript) :=
  (s.calls p m).map Handed.hook

/-- The hooks that were called while the sweep waited for them, in order. -/
def ran (p : Plan σ) (s₀ : State σ) (ms : List (Move σ)) : List (Hook HookScript) :=
  collect p (State.runs p) s₀ ms

/-- Outside the sweep no thread starts on a hook in time. -/
theorem calls_eq_nil (h : s.stage.isSweeping = false) (m : Move σ) : s.calls p m = [] := by
  unfold State.calls
  split
  · split
    · rename_i hstage
      rw [hstage] at h
      cases h
    · rfl
  · rfl

theorem begun_calls (p : Plan σ) (s : State σ) (m : Move σ) :
    ∀ c ∈ s.calls p m, c.begun.isSome := by
  unfold State.calls
  split
  · split
    · split
      · intro c hc
        obtain ⟨job, _, rfl⟩ := List.mem_map.mp hc
        rfl
      · simp
    · simp
  · simp

theorem begun_misses (s : State σ) (m : Move σ) : ∀ c ∈ s.misses m, c.begun = none := by
  unfold State.misses
  split
  · split
    · split
      · intro c hc
        obtain ⟨job, _, rfl⟩ := List.mem_map.mp hc
        rfl
      · simp
    · simp
  · simp

/-- The hooks that were called in time are those of the hooks handed over on which a thread started. -/
theorem ran_eq (p : Plan σ) (s₀ : State σ) (ms : List (Move σ)) :
    ran p s₀ ms = ((handed p s₀ ms).filter (·.begun.isSome)).map Handed.hook := by
  have hmove : ∀ s : State σ, ∀ m, s.runs p m =
      ((s.calls p m ++ s.misses m).filter (·.begun.isSome)).map Handed.hook := by
    intro s m
    have hmisses : (s.misses m).filter (·.begun.isSome) = [] := by
      refine List.filter_eq_nil_iff.mpr fun c hc => ?_
      rw [begun_misses s m c hc]
      exact Bool.false_ne_true
    rw [List.filter_append, List.filter_eq_self.mpr (begun_calls p s m), hmisses, List.append_nil]
    rfl
  rw [ran, handed]
  induction ms generalizing s₀ with
  | nil => rfl
  | cons m ms ih =>
    rw [collect, collect, List.filter_append, List.map_append, hmove]
    cases s₀.move p m with
    | none => rfl
    | some s => exact congrArg _ (ih s)

/-- If threads started on all hooks in time, those that were called are all that were handed over. -/
theorem ran_eq_handed {ms : List (Move σ)} (h : ∀ c ∈ handed p s₀ ms, c.begun.isSome) :
    ran p s₀ ms = (handed p s₀ ms).map Handed.hook := by
  rw [ran_eq, List.filter_eq_self.mpr h]

/-! ## 2. What the sweep keeps of them -/

/-- Whether a phase tells of the given hooks: a sweep under way has records of them all, but for the
one that it waits for, and a report has records of them all. -/
def Phase.Tells (limit : Duration) (hooks : List (Handed HookScript)) : Phase → Prop
  | .early | .live | .failed _ => hooks = []
  | .sweeping _ progress => ∃ all log done last, Tracks limit all progress log done last ∧
    done ++ last.toList.filter (·.begun.isSome) = hooks
  | .swept report => report.records = hooks.map (Handed.record limit)

/-- A step of the sweep tells of one hook more, if it has waited for it in vain. -/
theorem tells_sweep {hooks : List (Handed HookScript)} {trigger : StopTrigger}
    {progress : Sweep.Progress HookScript} (hs : s.stage = .sweeping trigger progress)
    (h : s.stage.phase.Tells p.hookLimit hooks) :
    (sweep trigger progress s).stage.phase.Tells p.hookLimit (hooks ++ s.misses .main) := by
  simp only [State.misses, hs]
  rw [hs] at h
  obtain ⟨all, log, done, last, htracks, rfl⟩ := h
  cases last with
  | none =>
    have hcurrent : progress.current = none := htracks.current
    rw [hcurrent, Option.isSome_none, if_neg Bool.false_ne_true, List.append_nil, sweep]
    split
    · have hrecords : progress.report.records = done.map (Handed.record p.hookLimit) :=
        htracks.records
      rw [Option.toList_none, List.filter_nil, List.append_nil]
      cases trigger <;> exact hrecords
    · rename_i hover
      cases hwaiting : progress.waiting with
      | nil => exact absurd (Progress.isOver_iff.mpr ⟨hwaiting, hcurrent⟩) hover
      | cons next rest => exact ⟨all, log, done, _, htracks.hand _ hwaiting s.worker, rfl⟩
  | some c =>
    have hcurrent : progress.current = some (c.hook, c.waited p.hookLimit) := htracks.current
    have hover : ¬progress.isOver = true := fun hover => by
      rw [(Progress.isOver_iff.mp hover).2] at hcurrent
      cases hcurrent
    rw [hcurrent, Option.isSome_some, if_pos rfl, sweep, if_neg hover]
    refine ⟨all, _, done ++ [c], none, htracks.settle _ (call p) s.worker, ?_⟩
    -- The hook lies in its queue exactly if no thread has started on it.
    have hlength : progress.records.length = done.length := by
      rw [htracks.records, List.length_map]
    have hjob := htracks.job done.length c.job
    rw [hlength]
    cases hbegun : c.begun with
    | none =>
      have hmine : progress.job? done.length = some c.job :=
        hjob.mpr ⟨c, by simp, hbegun, htracks.not_late, rfl⟩
      have hc : (⟨c.worker, c.hook, none⟩ : Handed HookScript) = c := by rw [← hbegun]
      simp [hmine, hbegun, Handed.job, hc]
    | some x =>
      have hnone : progress.job? done.length = none := by
        refine Option.eq_none_iff_forall_not_mem.mpr fun job hmem => ?_
        obtain ⟨c', hc', hbegun', _⟩ := (htracks.job done.length job).mp hmem
        obtain rfl : c = c' := by simpa using hc'
        rw [hbegun] at hbegun'
        cases hbegun'
      simp [hnone, hbegun]

/-- A thread that starts on a hook in time tells of it. -/
theorem tells_begin {hooks : List (Handed HookScript)} {trigger : StopTrigger}
    {progress progress' : Sweep.Progress HookScript} {hook : Nat} {delay : Duration}
    {worker : Worker} (hs : s.stage = .sweeping trigger progress)
    (hb : progress.begin (call p) hook delay s.worker = some (progress', worker))
    (h : (Phase.sweeping trigger progress).Tells p.hookLimit hooks) :
    (Phase.sweeping trigger progress').Tells p.hookLimit
      (hooks ++ s.calls p (.begin hook delay)) := by
  obtain ⟨all, log, done, last, htracks, rfl⟩ := h
  simp only [State.calls, hs]
  obtain ⟨w, next, hjob, _, ⟨hlate, rfl⟩ | ⟨hwait, hdelay, rfl⟩⟩ := Progress.begin_cases hb
  · rw [if_neg fun hin => absurd hin.1 (Nat.not_le.mpr hlate), List.append_nil]
    let reply := (call p w next s.worker).1
    exact ⟨all, _, done, last, htracks.forsake hjob hlate reply, rfl⟩
  · obtain ⟨rfl, htracks'⟩ :=
      htracks.begin hjob hwait hdelay (call p w next s.worker).1
    rw [if_pos ⟨hwait, hdelay⟩, hjob]
    refine ⟨all, _, done, _, htracks', ?_⟩
    simp

/-- Only steps of a sweep and threads that start on hooks have to do with the hooks handed over. -/
theorem handed_eq_nil {m : Move σ} (hbegin : m.isBegin = false)
    (hmain : m = .main → s.stage.isSweeping = false) : s.calls p m ++ s.misses m = [] := by
  unfold State.calls State.misses
  cases m with
  | main =>
    have hstage := hmain rfl
    cases hs : s.stage with
    | sweeping trigger progress =>
      rw [hs] at hstage
      cases hstage
    | _ => rfl
  | begin hook delay => cases hbegin
  | _ => rfl

/-- After every move the phase tells of the hooks so far. -/
theorem tells_move {m : Move σ} {hooks : List (Handed HookScript)} (h : s.move p m = some s')
    (hs : s.stage.phase.Tells p.hookLimit hooks) :
    s'.stage.phase.Tells p.hookLimit (hooks ++ (s.calls p m ++ s.misses m)) := by
  cases move_effect h with
  | sweep hstage => exact tells_sweep hstage hs
  | @begin progress progress' worker hook delay hsweep hb =>
    rw [show s.misses (.begin hook delay) = [] from rfl, List.append_nil]
    rcases State.sweep?_cases hsweep with ⟨trigger, hstage⟩ | ⟨hstage, _⟩
    · rw [hstage] at hs
      rw [State.keepSweep_of_sweeping (s := { s with worker }) hstage]
      exact tells_begin hstage hb hs
    · rw [calls_eq_nil hstage, List.append_nil,
        State.keepSweep_of_left (s := { s with worker }) hstage]
      exact hs
  | @deliver progress progress' hook outcome hsweep hdeliver =>
    rw [handed_eq_nil (m := .deliver hook outcome) rfl nofun, List.append_nil]
    rcases State.sweep?_cases hsweep with ⟨trigger, hstage⟩ | ⟨hstage, _⟩
    · rw [hstage] at hs
      obtain ⟨all, log, done, last, htracks, hdone⟩ := hs
      rw [State.keepSweep_of_sweeping hstage]
      exact ⟨all, log, done, last, htracks.answer hdeliver, hdone⟩
    · rwa [State.keepSweep_of_left hstage]
  | boot hstage =>
    rw [handed_eq_nil rfl fun _ => by rw [hstage]; rfl, List.append_nil]
    rw [hstage] at hs
    obtain hphase | ⟨failure, hphase⟩ := boot_phase p s
    · rw [hphase]
      exact hs
    · rw [hphase]
      exact hs
  | drain hstage =>
    rw [handed_eq_nil rfl fun _ => by rw [hstage]; rfl, List.append_nil]
    rw [hstage] at hs
    exact ⟨_, [], [], none, tracks_start .., hs.symm⟩
  | register name script =>
    rw [handed_eq_nil (m := .register name script) rfl nofun, List.append_nil]
    exact hs
  | deregister number =>
    rw [handed_eq_nil (m := .deregister number) rfl nofun, List.append_nil]
    exact hs
  | quiet hquiet hmain _ hphase =>
    rw [handed_eq_nil hquiet.2 fun hm => (hmain hm).2, List.append_nil]
    rwa [hphase]

theorem tells_run {w : Worker} {o : σ} {ms : List (Move σ)}
    (h : (p.start w o).moves p ms = some s) :
    s.stage.phase.Tells p.hookLimit (handed p (p.start w o) ms) := by
  refine State.moves_induction (motive := fun ms s =>
    s.stage.phase.Tells p.hookLimit (handed p (p.start w o) ms)) ?_ ?_ h
  · rfl
  · intro ms m s s' hs hm ih
    rw [handed, collect_concat _ hs]
    exact tells_move hm ih

/-- A hook that was called in time has been called by the worker to which it was handed, within the
limit. -/
theorem begun_handed {w : Worker} {o : σ} {ms : List (Move σ)}
    (h : (p.start w o).moves p ms = some s) {c : Handed HookScript}
    (hc : c ∈ handed p (p.start w o) ms) {x : Duration × Reply} (hx : x ∈ c.begun) :
    x.1 ≤ p.hookLimit ∧ ∃ e ∈ history p (p.start w o) ms, c.hook ∈ e.before.runs p e.move ∧
      x.2 = (call p c.worker c.hook e.before.worker).1 := by
  obtain ⟨e, he, hc⟩ := (mem_collect_iff h).mp hc
  rcases List.mem_append.mp hc with hc | hc
  · have hruns : c.hook ∈ e.before.runs p e.move := List.mem_map_of_mem hc
    unfold State.calls at hc
    split at hc
    · split at hc
      · rename_i hook delay _ trigger progress hs
        split at hc
        · rename_i hin
          obtain ⟨job, _, rfl⟩ := List.mem_map.mp hc
          cases hx
          refine ⟨?_, e, he, hruns, rfl⟩
          obtain ⟨before, _, _, hbefore, _⟩ := (mem_history_iff h).mp he
          have htells := tells_run hbefore
          rw [hs] at htells
          obtain ⟨_, _, _, _, htracks, _⟩ := htells
          exact htracks.limit_eq ▸ hin.2
        · cases hc
      · cases hc
    · cases hc
  · rw [begun_misses _ _ c hc] at hx
    cases hx

/-! ## 3. What the report says -/

/-- The report has one record of every hook that was handed over, of what became of it by its own
reply and the start of its thread. -/
theorem records_eq {w : Worker} {o : σ} {ms : List (Move σ)} {report : Report}
    (h : (p.start w o).moves p ms = some s) (hs : s.stage.phase = .swept report) :
    report.records = (handed p (p.start w o) ms).map (Handed.record p.hookLimit) := by
  have htells := tells_run h
  rwa [hs] at htells

/-- The report is about the hooks that were handed over, in their order. -/
theorem hookNames_eq {w : Worker} {o : σ} {ms : List (Move σ)} {report : Report}
    (h : (p.start w o).moves p ms = some s) (hs : s.stage.phase = .swept report) :
    report.hookNames = (handed p (p.start w o) ms).map fun c => c.hook.name := by
  rw [Report.hookNames, records_eq h hs, List.map_map]
  rfl

end Run

end SupervisedWorker
