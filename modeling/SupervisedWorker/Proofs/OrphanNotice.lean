import SupervisedWorker.OrphanNotice
import SupervisedWorker.Proofs.Console.Gate

/-!
# Whether an orphan keeps quiet

The thread with the notice opens the gate as soon as it runs, and the process suppresses the gate
when it goes on. The process waits for the notice and not for the thread to start, and no longer
than its grace, so either of the two may come first.

Results:
1. `move_step`: what one step does.
2. `suppressed_moves`: once the process has gone on, only a thread that starts then moves the gate.
3. `quiet_iff_opened_in_time`: the gate stays suppressed exactly if the thread had opened it before.
4. `opened_behind_the_process`: that it may come later.
-/

namespace SupervisedWorker

namespace OrphanNotice

variable {s t u : State} {m : Move} {ms : List Move}

/-! ## 1. Steps -/

/-- What the steps do to the gate, to the thread and to the process. -/
inductive Step (s : State) : Move → State → Prop
  | opens : s.thread = .ready → Step s .thread { s with gate := s.gate.resume, thread := .opened }
  | writes {gate : Gate} : s.thread = .opened → gate.suppressed = s.gate.suppressed →
      Step s .thread { s with gate, thread := .done }
  /-- The process goes on, before the notice is written only because its grace is over. -/
  | goesOn {m : Move} : m ≠ .thread → s.waiting = true → (m = .noticed → s.thread = .done) →
      Step s m s.goOn

theorem move_step (h : s.move m = some t) : Step s m t := by
  unfold State.move at h
  cases m with
  | thread =>
    dsimp only at h
    split at h
    · cases h
      exact .opens ‹_›
    · cases h
      exact .writes ‹_› (Gate.pass_suppressed ..)
    · cases h
  | noticed =>
    dsimp only at h
    split at h
    · rename_i hready
      simp only [Bool.and_eq_true, decide_eq_true_eq] at hready
      cases h
      exact .goesOn nofun hready.1 fun _ => hready.2
    · cases h
  | graceOver =>
    dsimp only at h
    split at h
    · cases h
      exact .goesOn nofun ‹_› nofun
    · cases h

/-- The thread stands before its first step until it takes it. -/
theorem thread_moves (h : s.moves ms = some t) :
    t.thread = .ready ↔ s.thread = .ready ∧ .thread ∉ ms := by
  induction ms generalizing s with
  | nil =>
    cases h
    simp
  | cons m ms ih =>
    obtain ⟨s', hm, hrest⟩ := Option.bind_eq_some_iff.mp h
    rw [ih hrest]
    cases move_step hm with
    | opens | writes => simp
    | goesOn hother => simp [State.goOn, Ne.symm hother]

/-! ## 2. After the process has gone on -/

theorem waiting_moves (h : s.moves ms = some t) (hs : s.waiting = false) : t.waiting = false := by
  induction ms generalizing s with
  | nil =>
    cases h
    exact hs
  | cons m ms ih =>
    obtain ⟨s', hm, hrest⟩ := Option.bind_eq_some_iff.mp h
    refine ih hrest ?_
    cases move_step hm with
    | opens | writes => exact hs
    | goesOn => rfl

/-- Once the process has gone on, the gate stands as it was left, unless the thread starts only
then. -/
theorem suppressed_moves (h : s.moves ms = some t) (hs : s.waiting = false) :
    t.gate.suppressed = true ↔
      s.gate.suppressed = true ∧ (s.thread = .ready → .thread ∉ ms) := by
  induction ms generalizing s with
  | nil =>
    cases h
    simp
  | cons m ms ih =>
    obtain ⟨s', hm, hrest⟩ := Option.bind_eq_some_iff.mp h
    cases move_step hm with
    | opens hready =>
      have hopened := ih hrest hs
      simpa [hready, Gate.resume] using hopened
    | writes hopened hgate =>
      have hkept := ih hrest hs
      simpa [hopened, hgate] using hkept
    | goesOn _ hwaiting =>
      rw [hs] at hwaiting
      cases hwaiting

/-! ## 3. The end of the wait -/

/-- When the process goes on, whether because the notice is written or because its grace is over,
the gate is suppressed. It stays so for good exactly if the thread had opened it by then. A thread
that has not started opens the gate when it does, and nobody suppresses it again. -/
theorem quiet_iff_opened_in_time {gate : Gate} {before : List Move}
    (hbefore : (State.start gate).moves before = some s) (hm : m ≠ .thread)
    (hreturn : s.move m = some t) :
    t.waiting = false ∧ t.gate.suppressed = true ∧
    (m = .noticed → .thread ∈ before) ∧
    ((∀ after u, t.moves after = some u → u.gate.suppressed = true) ↔ .thread ∈ before) ∧
    ∀ after u, t.moves after = some u → u.waiting = false ∧
      (u.gate.suppressed = true ↔ .thread ∈ before ∨ .thread ∉ after) ∧
      (u.gate.suppressed = false →
        ∀ more v, u.moves more = some v → v.gate.suppressed = false) := by
  have hstarted : s.thread = .ready ↔ .thread ∉ before := by
    rw [thread_moves hbefore]
    simp [State.start]
  cases move_step hreturn with
  | opens | writes => exact absurd rfl hm
  | goesOn _ _ hnoticed =>
    have hafter : ∀ after u, s.goOn.moves after = some u →
        (u.gate.suppressed = true ↔ .thread ∈ before ∨ .thread ∉ after) := by
      intro after u hu
      have hgate : s.goOn.gate.suppressed = true := rfl
      have hthread : s.goOn.thread = .ready ↔ .thread ∉ before := hstarted
      rw [suppressed_moves hu rfl, hthread, Classical.or_iff_not_imp_left]
      exact and_iff_right hgate
    refine ⟨rfl, rfl, ?_, ⟨?_, ?_⟩, ?_⟩
    · intro hm
      by_cases hopened : .thread ∈ before
      · exact hopened
      · have hready := hstarted.mpr hopened
        rw [hnoticed hm] at hready
        cases hready
    · -- A thread that has not started may do so now.
      intro hquiet
      by_cases hopened : .thread ∈ before
      · exact hopened
      · have hstart : s.goOn.moves [.thread] =
            some { s.goOn with gate := s.goOn.gate.resume, thread := .opened } := by
          simp [State.moves, State.move, State.goOn, hstarted.mpr hopened]
        cases hquiet _ _ hstart
    · intro hopened after u hu
      exact (hafter after u hu).mpr (.inl hopened)
    · intro after u hu
      have hgone := waiting_moves hu rfl
      refine ⟨hgone, hafter after u hu, fun hopen more v hv => Bool.eq_false_iff.mpr ?_⟩
      intro hsuppressed
      rw [((suppressed_moves hv hgone).mp hsuppressed).1] at hopen
      cases hopen

/-- A thread that hangs in its write until the grace is over finds the gate suppressed. -/
theorem quiet_iff_opened_in_time_hanging :
    let gate := (Gate.ofStreams .unlimited .unlimited).suppress
    ∃ s t u, (State.start gate).moves [.thread] = some s ∧ s.move .graceOver = some t ∧
      t.moves [.thread] = some u ∧ u.thread = .done ∧ u.gate.suppressed = true := by
  intro gate
  have hrun : ((State.start gate).moves [.thread]).bind (fun s => (s.move .graceOver).bind
      fun t => (t.moves [.thread]).map (·.thread)) = some .done := by
    decide
  obtain ⟨s, hs, hrun⟩ := Option.bind_eq_some_iff.mp hrun
  obtain ⟨t, ht, hrun⟩ := Option.bind_eq_some_iff.mp hrun
  obtain ⟨u, hu, hdone⟩ := Option.map_eq_some_iff.mp hrun
  have hm : Move.graceOver ≠ .thread := nofun
  obtain ⟨_, _, _, hquiet, _⟩ := quiet_iff_opened_in_time hs hm ht
  exact ⟨s, t, u, hs, ht, hu, hdone, hquiet.mpr (by decide) _ u hu⟩

/-- Without any grace the process may be gone before the thread starts. The thread then opens the
gate behind it, and the notice gets through as well. -/
theorem opened_behind_the_process :
    let gate := (Gate.ofStreams .unlimited .unlimited).suppress
    ∃ t u, (State.start gate).moves [.graceOver] = some t ∧ t.waiting = false ∧
      t.gate.suppressed = true ∧ t.moves [.thread, .thread] = some u ∧
      u.gate.suppressed = false ∧ u.gate.out.received = Text.utf8 (consoleLine entry) := by
  intro gate
  exact ⟨_, _, rfl, rfl, rfl, rfl, rfl, by decide +kernel⟩

end OrphanNotice

end SupervisedWorker
