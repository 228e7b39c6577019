import SupervisedWorker.Proofs.Run.Course
import SupervisedWorker.Proofs.Run.History

/-!
# Who triggers the interrupt

The monitor, the main task and others trigger the interrupt, in two steps each: a reason first, then
the interrupt itself. The steps of different callers may come in any order.

Results:
1. `reason_eq`: the reason of the interrupt is that of the first caller, for good.
2. `reasoned`: an interrupt that is raised has a reason.
3. `record_idle`, `raise_idle`: a trigger that comes later leaves the run as it is.
-/

namespace SupervisedWorker

namespace Run

variable {σ : Type} {p : Plan σ} {s s' s₀ : State σ}

/-! ## 1. Callers -/

/-- Who triggers the interrupt. -/
inductive Caller
  | monitor
  | mainTask
  | other (reason : String)
deriving DecidableEq, Repr

/-- The reason that a caller gives. -/
def Caller.reason : Caller → String
  | .monitor => parentLost
  | .mainTask => stopping
  | .other reason => reason

/-- Who takes the first step of a trigger with a move. -/
def State.callers (s : State σ) : Move σ → List Caller
  | .main =>
    match s.stage with
    | .stopping _ => [.mainTask]
    | _ => []
  | .guardian =>
    match s.guardian with
    | .recording => [.monitor]
    | _ => []
  | .record reason => [.other reason]
  | _ => []

/-- Who triggered the interrupt, the first one first. -/
def callers (p : Plan σ) (s₀ : State σ) (ms : List (Move σ)) : List Caller :=
  collect p State.callers s₀ ms

theorem recordReason_reason (i : Interrupt) (reason : String) :
    (i.recordReason reason).reason = i.reason.or (some reason) := by
  unfold Interrupt.recordReason
  cases i.reason <;> rfl

theorem reason_move {m : Move σ} (h : s.move p m = some s') :
    s'.interrupt.reason = s.interrupt.reason.or ((s.callers m).head?.map Caller.reason) := by
  rw [interrupt_move h]
  cases m with
  | main =>
    simp only [State.interruptAfter, State.callers]
    cases s.stage <;> simp [recordReason_reason, Interrupt.raise, Caller.reason]
  | guardian =>
    simp only [State.interruptAfter, State.callers]
    cases s.guardian <;> simp [recordReason_reason, Interrupt.raise, Caller.reason]
  | record reason => exact recordReason_reason _ _
  | _ => simp [State.interruptAfter, State.callers, Interrupt.raise]

/-- A reason that is recorded stays. -/
theorem reason_kept {m : Move σ} {reason : String} (h : s.move p m = some s')
    (hreason : s.interrupt.reason = some reason) : s'.interrupt.reason = some reason := by
  rw [reason_move h, hreason]
  rfl

/-- The reason of the interrupt is that of the first caller. -/
theorem reason_eq {w : Worker} {o : σ} {ms : List (Move σ)}
    (h : (p.start w o).moves p ms = some s) :
    s.interrupt.reason = (callers p (p.start w o) ms).head?.map Caller.reason := by
  refine State.moves_induction (p := p) (motive := fun ms s =>
    s.interrupt.reason = (callers p (p.start w o) ms).head?.map Caller.reason) rfl ?_ h
  intro ms m s s' hs hm ih
  rw [reason_move hm, ih, callers, callers, collect_concat _ hs, List.head?_append]
  cases (collect p State.callers (p.start w o) ms).head? <;> rfl

/-! ## 2. Reasons -/

/-- Whoever is about to raise the interrupt, or sees it raised, finds a reason. -/
structure State.Reasoned (s : State σ) : Prop where
  raised : s.interrupt.raised = true → s.interrupt.reason.isSome = true
  main : ∀ trigger, s.stage = .raising trigger → s.interrupt.reason.isSome = true
  guardian : s.guardian = .raising → s.interrupt.reason.isSome = true

theorem guardian_raising {m : Move σ} (h : s.move p m = some s') (hg : s'.guardian = .raising) :
    s.guardian = .raising ∨ m = .guardian ∧ s.guardian = .recording := by
  obtain rfl | hsame | ⟨_, hwatching, _⟩ := guardian_cases h
  · obtain ⟨_, _, hway⟩ := guardianStep_way h
    cases hg₀ : s.guardian with
    | recording => exact .inr ⟨rfl, rfl⟩
    | raising => exact .inl rfl
    | watching phase =>
      rw [hg₀, hg] at hway
      dsimp only at hway
      cases hphase : (p.monitor.step (monitorSurroundings p) phase s).1 with
      | ended exit =>
        rw [hphase] at hway
        cases exit <;> cases hway
      | _ =>
        rw [hphase] at hway
        cases hway
    | _ =>
      rw [hg₀, hg] at hway
      cases hway
  · exact .inl (hsame.symm.trans hg)
  · rw [hg] at hwatching
    cases hwatching

theorem State.Reasoned.move {m : Move σ} (hs : s.Reasoned) (h : s.move p m = some s') :
    s'.Reasoned := by
  have hkept : s.interrupt.reason.isSome = true → s'.interrupt.reason.isSome = true := by
    intro hsome
    rw [reason_move h, Option.isSome_or, hsome]
    rfl
  constructor
  · intro hraised
    apply hkept
    rw [interrupt_move h] at hraised
    cases m with
    | main =>
      simp only [State.interruptAfter] at hraised
      split at hraised
      · exact hs.raised hraised
      · exact hs.main _ ‹_›
      · exact hs.raised hraised
    | guardian =>
      simp only [State.interruptAfter] at hraised
      split at hraised
      · exact hs.raised hraised
      · exact hs.guardian ‹_›
      · exact hs.raised hraised
    | raise =>
      rw [State.move] at h
      split at h
      · assumption
      · cases h
    | _ => exact hs.raised hraised
  · -- The main task raises the interrupt right after it has recorded a reason.
    intro trigger hs'
    have horigin := (move_passage h).origin
    rw [hs'] at horigin
    rcases horigin with hsame | ⟨rfl, hstopping⟩
    · exact hkept (hs.main trigger hsame.symm)
    · rw [reason_move h, State.callers, hstopping, Option.isSome_or]
      exact Bool.or_true _
  · intro hg
    rcases guardian_raising h hg with hsame | ⟨rfl, hrecording⟩
    · exact hkept (hs.guardian hsame)
    · rw [reason_move h, State.callers, hrecording, Option.isSome_or]
      exact Bool.or_true _

/-- An interrupt that is raised has a reason. -/
theorem reasoned {w : Worker} {o : σ} {ms : List (Move σ)}
    (h : (p.start w o).moves p ms = some s) : s.Reasoned := by
  refine State.moves_induction (motive := fun _ s => s.Reasoned) ?_ ?_ h
  · constructor
    · intro hraised
      cases hraised
    · intro trigger hs
      cases hs
    · intro hg
      cases hg
  · intro _ m s s' _ hm hs
    exact hs.move hm

/-- Once there is a reason, the first step of another trigger changes nothing. -/
theorem record_idle (hreason : s.interrupt.reason.isSome = true) (reason : String) :
    s.record reason = s := by
  rcases s with ⟨_, _, ⟨_ | first, raised, tokens⟩, _, _, _, _, _, _⟩
  · cases hreason
  · rfl

theorem raise_idle (hraised : s.interrupt.raised = true) : s.raise = s := by
  unfold State.raise Interrupt.raise
  rw [← hraised]

end Run

end SupervisedWorker
