import SupervisedWorker.Proofs.Run.Callers
import SupervisedWorker.Proofs.Run.Return
import SupervisedWorker.Proofs.StopWatch

/-!
# How a run ends

Three causes race for the end of a supervised run: somebody interrupts it, its marker is found, or
its monitor finds the agent dead. They meet in the interrupt, which keeps the first reason only, and
in the watch, which looks for the marker once more after an interrupt.

Results:
1. `seen`: what the watch has seen, and what released it, on every leg of a run.
2. `tried`, `signed`: a marker that was found is removed, and the completion token is printed.
3. `ends_as_caused`: the ending is the one that the causes call for.
-/

namespace SupervisedWorker

namespace Run

variable {σ : Type} {p : Plan σ} {s s' s₀ : State σ}

/-! ## 1. The legs of a run -/

/-- A look for the marker: whether it is the one after an interrupt, and whether it finds it. -/
structure Look where
  last : Bool
  found : Bool
deriving DecidableEq, Repr

/-- The looks for the marker that a move takes. -/
def State.looks (p : Plan σ) (s : State σ) : Move σ → List Look
  | .main =>
    match s.stage, p.watch with
    | .polling last, some w => [⟨last, sees p w s⟩]
    | _, _ => []
  | _ => []

/-- The looks for the marker, in order. -/
def looks (p : Plan σ) (s₀ : State σ) (ms : List (Move σ)) : List Look :=
  collect p (State.looks p) s₀ ms

/-- What a move shows to have released the watch. -/
def State.releases (s : State σ) : Move σ → List StopTrigger
  | .main =>
    match s.stage with
    | .released trigger => [trigger]
    | _ => []
  | _ => []

/-- What released the watch. -/
def releases (p : Plan σ) (s₀ : State σ) (ms : List (Move σ)) : List StopTrigger :=
  collect p State.releases s₀ ms

/-- How far a run has come. -/
inductive Leg
  /-- The services are not started, or not all of them. -/
  | early
  | watch
  | removal (last : Bool)
  | release (trigger : StopTrigger)
  /-- Before the look after an interrupt. -/
  | second
  | closing (trigger : StopTrigger)
  | orphaned
deriving DecidableEq, Repr

/-- The leg to which a stage belongs. -/
def Stage.leg : Stage → Leg
  | .opening | .booting | .finished (.bootFailed _) => .early
  | .watching | .dozing | .polling false => .watch
  | .removing last _ _ => .removal last
  | .released trigger => .release trigger
  | .lingering | .polling true => .second
  | .stopping trigger | .raising trigger | .joining trigger | .draining trigger
  | .sweeping trigger _ | .reporting trigger _ | .finished (.stopped trigger _) => .closing trigger
  | .quieting | .resuming _ | .signing _ | .leaving _ => .closing .stopCommand
  | .finished .orphaned => .orphaned

/-- The ways from one leg of a supervised run to the next, with the looks and the release on
them. -/
inductive Stride (i : Interrupt) : Leg → List Look → List StopTrigger → Leg → Prop
  | stay {leg : Leg} : Stride i leg [] [] leg
  | boot : Stride i .early [] [] .watch
  | miss : Stride i .watch [⟨false, false⟩] [] .watch
  | find : Stride i .watch [⟨false, true⟩] [] (.removal false)
  | interrupt : i.raised = true → Stride i .watch [] [] (.release .interrupted)
  | remove : Stride i (.removal false) [] [] (.release .stopCommand)
  | obey : Stride i (.release .stopCommand) [] [.stopCommand] (.closing .stopCommand)
  | orphan : i.reason = some parentLost →
      Stride i (.release .interrupted) [] [.interrupted] .orphaned
  | linger : i.reason ≠ some parentLost → Stride i (.release .interrupted) [] [.interrupted] .second
  | findLate : Stride i .second [⟨true, true⟩] [] (.removal true)
  | missLate : Stride i .second [⟨true, false⟩] [] (.closing .interrupted)
  | removeLate : Stride i (.removal true) [] [] (.closing .stopCommand)

/-- Every move is a stride. -/
theorem move_stride {m : Move σ} (hsup : p.role.isSupervised = true) (h : s.move p m = some s') :
    Stride s.interrupt s.stage.leg (s.looks p m) (s.releases m) s'.stage.leg := by
  cases move_passage h with
  | elsewhere hturn hsame =>
    have hnothing : s.looks p m = [] ∧ s.releases m = [] := by
      cases m with
      | main => cases hturn
      | _ => exact ⟨rfl, rfl⟩
    rw [hsame, hnothing.1, hnothing.2]
    exact .stay
  | begun hs _ hnext | answered hs _ hnext =>
    rw [hs, hnext]
    exact .stay
  | booted hs _ hnext =>
    simp only [State.looks, State.releases, hs, hnext]
    exact .boot
  | interrupted hs hraised hnext | roused hs hraised hnext =>
    simp only [State.looks, State.releases, hs, hnext]
    exact .interrupt hraised
  | @found w last _ hs hw hsees hnext =>
    simp only [State.looks, State.releases, hs, hnext, hw, hsees]
    cases last
    · exact .find
    · exact .findLate
  | @missed w last _ hs hw hsees hnext =>
    simp only [State.looks, State.releases, hs, hnext, hw, hsees]
    cases last
    · exact .miss
    · exact .missLate
  | @consumed last _ _ _ hs hnext =>
    simp only [State.looks, State.releases, hs, hnext]
    cases last
    · exact .remove
    · exact .removeLate
  | @released trigger _ hs hnext =>
    simp only [State.looks, State.releases, hs, hnext]
    cases trigger with
    | stopCommand => exact .obey
    | interrupted =>
      by_cases hreason : s.interrupt.reason = some parentLost
      · simp only [afterWatch, if_pos hreason]
        exact .orphan hreason
      · simp only [afterWatch, if_neg hreason, if_pos hsup]
        exact .linger hreason
  | @joined trigger m _ hturn hs hnext =>
    have hnothing : s.looks p m = [] ∧ s.releases m = [] := by
      cases m <;> simp [State.looks, State.releases, hs]
    rw [hs, hnext, hnothing.1, hnothing.2]
    cases trigger <;> exact .stay
  | @swept trigger _ _ hs _ hnext | @reported trigger _ _ hs hnext =>
    simp only [State.looks, State.releases, hs, hnext]
    cases trigger <;> exact .stay
  | opened hs hnext | failed hs _ hnext | turned hs _ _ hnext | woken hs _ hnext
  | failedOnce hs hnext | lingered hs hnext | recorded hs hnext | raised hs hnext
  | quieted hs hnext | drained hs hnext | sweeping hs _ hnext | resumed hs hnext | signed hs hnext
  | left hs hnext =>
    simp only [State.looks, State.releases, hs, hnext]
    exact .stay

/-- Somebody else than the monitor was the first to give a reason. -/
def Foreign (reason : Option String) : Prop := ∃ r, reason = some r ∧ r ≠ parentLost

/-- Looks that find nothing. -/
def idle (n : Nat) : List Look := List.replicate n ⟨false, false⟩

/-- What has been seen on the way to a leg, and what released the watch. -/
inductive Seen (reason : Option String) : Leg → List Look → List StopTrigger → Prop
  | early : Seen reason .early [] []
  | watch (n : Nat) : Seen reason .watch (idle n) []
  | removal (n : Nat) : Seen reason (.removal false) (idle n ++ [⟨false, true⟩]) []
  | found (n : Nat) : Seen reason (.release .stopCommand) (idle n ++ [⟨false, true⟩]) []
  | obeyed (n : Nat) :
      Seen reason (.closing .stopCommand) (idle n ++ [⟨false, true⟩]) [.stopCommand]
  | interrupted (n : Nat) : reason.isSome = true → Seen reason (.release .interrupted) (idle n) []
  | orphaned (n : Nat) : reason = some parentLost → Seen reason .orphaned (idle n) [.interrupted]
  | second (n : Nat) : Foreign reason → Seen reason .second (idle n) [.interrupted]
  | late (n : Nat) : Foreign reason →
      Seen reason (.removal true) (idle n ++ [⟨true, true⟩]) [.interrupted]
  | foundLate (n : Nat) : Foreign reason →
      Seen reason (.closing .stopCommand) (idle n ++ [⟨true, true⟩]) [.interrupted]
  | missedLate (n : Nat) : Foreign reason →
      Seen reason (.closing .interrupted) (idle n ++ [⟨true, false⟩]) [.interrupted]

/-- A later reason changes nothing about what was seen. -/
theorem Seen.later {reason reason' : Option String} {leg : Leg} {ls : List Look}
    {rs : List StopTrigger} (h : Seen reason leg ls rs)
    (hkept : ∀ r, reason = some r → reason' = some r) : Seen reason' leg ls rs := by
  have hforeign : Foreign reason → Foreign reason' := by
    rintro ⟨r, hr, hne⟩
    exact ⟨r, hkept r hr, hne⟩
  cases h with
  | early => exact .early
  | watch n => exact .watch n
  | removal n => exact .removal n
  | found n => exact .found n
  | obeyed n => exact .obeyed n
  | interrupted n hsome =>
    obtain ⟨r, hr⟩ := Option.isSome_iff_exists.mp hsome
    exact .interrupted n (hkept r hr ▸ rfl)
  | orphaned n hlost => exact .orphaned n (hkept _ hlost)
  | second n hr => exact .second n (hforeign hr)
  | late n hr => exact .late n (hforeign hr)
  | foundLate n hr => exact .foundLate n (hforeign hr)
  | missedLate n hr => exact .missedLate n (hforeign hr)

theorem Seen.stride {i : Interrupt} {leg leg' : Leg} {ls ls' : List Look}
    {rs rs' : List StopTrigger} (h : Seen i.reason leg ls rs)
    (hraised : i.raised = true → i.reason.isSome = true) (hstride : Stride i leg ls' rs' leg') :
    Seen i.reason leg' (ls ++ ls') (rs ++ rs') := by
  cases hstride with
  | stay =>
    rw [List.append_nil, List.append_nil]
    exact h
  | boot =>
    cases h
    exact .watch 0
  | miss =>
    cases h with
    | watch n =>
      rw [List.append_nil, idle, ← List.replicate_succ']
      exact .watch (n + 1)
  | find =>
    cases h with
    | watch n => exact .removal n
  | interrupt hr =>
    cases h with
    | watch n =>
      rw [List.append_nil]
      exact .interrupted n (hraised hr)
  | remove =>
    cases h with
    | removal n =>
      rw [List.append_nil]
      exact .found n
  | obey =>
    cases h with
    | found n =>
      rw [List.append_nil]
      exact .obeyed n
  | orphan hlost =>
    cases h with
    | interrupted n _ =>
      rw [List.append_nil]
      exact .orphaned n hlost
  | linger hne =>
    cases h with
    | interrupted n hsome =>
      obtain ⟨r, hr⟩ := Option.isSome_iff_exists.mp hsome
      rw [List.append_nil]
      exact .second n ⟨r, hr, fun hlost => hne (hlost ▸ hr)⟩
  | findLate =>
    cases h with
    | second n hr => exact .late n hr
  | missLate =>
    cases h with
    | second n hr => exact .missedLate n hr
  | removeLate =>
    cases h with
    | late n hr =>
      rw [List.append_nil]
      exact .foundLate n hr

/-- What has been seen, wherever a supervised run stands. -/
theorem seen (hsup : p.role.isSupervised = true) {w : Worker} {o : σ} {ms : List (Move σ)}
    (h : (p.start w o).moves p ms = some s) :
    Seen s.interrupt.reason s.stage.leg (looks p (p.start w o) ms)
      (releases p (p.start w o) ms) := by
  refine State.moves_induction (motive := fun ms s => Seen s.interrupt.reason s.stage.leg
    (looks p (p.start w o) ms) (releases p (p.start w o) ms)) .early ?_ h
  intro ms m s s' hs hm ih
  have hstride := ih.stride (reasoned hs).raised (move_stride hsup hm)
  rw [looks, releases, collect_concat _ hs, collect_concat _ hs]
  exact hstride.later fun r hr => reason_kept hm hr

/-! ## 2. What the main task does on its way -/

/-- The main task attempts to remove the marker. -/
def Event.Removes (p : Plan σ) (w : StopWatch) (e : Event σ) : Prop :=
  (∃ last left attempt, e.before.stage = .removing last (left + 1) attempt) ∧
    e.after.outside = (p.files.remove w.marker e.before.outside).2

/-- The main task prints the completion token. -/
def Event.Signs (p : Plan σ) (report : Report) (e : Event σ) : Prop :=
  e.before.stage = .signing report ∧
    e.after = (e.before.say p.settings.shutdown.completionToken).goTo (.leaving report)

theorem removes_main {w : StopWatch} (hw : p.watch = some w) {last : Bool} {left attempt : Nat}
    (h : s.move p .main = some s') (hs : s.stage = .removing last (left + 1) attempt) :
    Event.Removes p w ⟨s, .main, s'⟩ := by
  refine ⟨⟨last, left, attempt, hs⟩, ?_⟩
  rw [State.move, mainStep, hs, hw] at h
  cases h
  exact remove_outside w last left attempt s

/-- Whether the main task is about to try the removal of the marker. -/
def Stage.isRemoving : Stage → Bool
  | .removing .. => true
  | _ => false

/-- A marker that was found has been tried to remove, or is about to be. -/
structure Tried (p : Plan σ) (w : StopWatch) (es : List (Event σ)) (s : State σ) : Prop where
  removing : ∀ last left attempt, s.stage = .removing last left attempt →
    left = w.attempts ∨ ∃ e ∈ es, e.Removes p w
  removed : s.stage.leg = .release .stopCommand ∨ s.stage.leg = .closing .stopCommand →
    ∃ e ∈ es, e.Removes p w

theorem Tried.concat {w : StopWatch} {es : List (Event σ)} {m : Move σ} (ht : Tried p w es s)
    (hsup : p.role.isSupervised = true) (hw : p.watch = some w) (h : s.move p m = some s') :
    Tried p w (es ++ [⟨s, m, s'⟩]) s' := by
  have hmore : (∃ e ∈ es, e.Removes p w) → ∃ e ∈ es ++ [⟨s, m, s'⟩], e.Removes p w := by
    rintro ⟨e, he, hremoves⟩
    exact ⟨e, List.mem_append_left _ he, hremoves⟩
  have hnow : Event.Removes p w ⟨s, m, s'⟩ → ∃ e ∈ es ++ [⟨s, m, s'⟩], e.Removes p w :=
    fun hremoves => ⟨_, by simp, hremoves⟩
  -- On most ways the leg stays the same, and none but those at the marker lead to a removal.
  have hstay : s'.stage.leg = s.stage.leg → s'.stage.isRemoving = false →
      Tried p w (es ++ [⟨s, m, s'⟩]) s' := by
    intro hleg hstage
    constructor
    · intro last left attempt hs'
      rw [hs'] at hstage
      cases hstage
    · intro hleg'
      rw [hleg] at hleg'
      exact hmore (ht.removed hleg')
  cases move_passage h with
  | elsewhere _ hsame =>
    constructor
    · intro last left attempt hs'
      exact (ht.removing last left attempt (hsame.symm.trans hs')).imp id hmore
    · intro hleg
      rw [hsame] at hleg
      exact hmore (ht.removed hleg)
  | found hs hw' _ hnext =>
    constructor
    · intro last left attempt hs'
      rw [hnext] at hs'
      cases hs'
      exact .inl (congrArg StopWatch.attempts (Option.some.inj (hw'.symm.trans hw)))
    · rw [hnext]
      rintro (hleg | hleg) <;> cases hleg
  | failedOnce hs hnext =>
    have hremoves := hnow (removes_main hw h hs)
    exact ⟨fun _ _ _ _ => .inr hremoves, fun _ => hremoves⟩
  | @consumed last left attempt _ hs hnext =>
    have hremoves : ∃ e ∈ es ++ [⟨s, .main, s'⟩], e.Removes p w := by
      cases left with
      | zero =>
        rcases ht.removing _ _ _ hs with hnone | hsome
        · exact absurd hnone (Nat.ne_of_lt w.attempts_pos)
        · exact hmore hsome
      | succ left => exact hnow (removes_main hw h hs)
    exact ⟨fun _ _ _ _ => .inr hremoves, fun _ => hremoves⟩
  | @released trigger _ hs hnext =>
    cases trigger with
    | stopCommand =>
      have hremoves := hmore (ht.removed (.inl (by rw [hs]; rfl)))
      exact ⟨fun _ _ _ _ => .inr hremoves, fun _ => hremoves⟩
    | interrupted =>
      obtain hstage | ⟨_, hstage⟩ | ⟨halone, _⟩ := afterWatch_cases p s.interrupt.reason
      · refine ⟨?_, ?_⟩ <;> rw [hnext, hstage] <;> simp [Stage.leg]
      · refine ⟨?_, ?_⟩ <;> rw [hnext, hstage] <;> simp [Stage.leg]
      · rw [hsup] at halone
        cases halone
  | @missed _ last _ hs _ _ hnext =>
    cases last
    · exact hstay (by rw [hs, hnext]; rfl) (by rw [hnext]; rfl)
    · refine ⟨?_, ?_⟩ <;> rw [hnext] <;> simp [afterNothing, Stage.leg]
  | booted _ _ hnext | interrupted _ _ hnext | roused _ _ hnext =>
    refine ⟨?_, ?_⟩ <;> rw [hnext] <;> simp [Stage.leg]
  | @joined trigger _ _ _ hs hnext | @swept trigger _ _ hs _ hnext
  | @reported trigger _ _ hs hnext =>
    cases trigger <;> exact hstay (by rw [hs, hnext]; rfl) (by rw [hnext]; rfl)
  | begun hs _ hnext | answered hs _ hnext | opened hs hnext | failed hs _ hnext | turned hs _ _ hnext
  | woken hs _ hnext | lingered hs hnext | recorded hs hnext | raised hs hnext
  | quieted hs hnext | drained hs hnext | sweeping hs _ hnext | resumed hs hnext
  | signed hs hnext | left hs hnext =>
    exact hstay (by rw [hs, hnext]; rfl) (by rw [hnext]; rfl)

theorem signed {w : Worker} {o : σ} {ms : List (Move σ)} {report : Report}
    (h : (p.start w o).moves p ms = some s)
    (hs : s.stage = .leaving report ∨ s.stage = .finished (.stopped .stopCommand report)) :
    ∃ e ∈ history p (p.start w o) ms, e.Signs p report := by
  refine State.moves_induction (motive := fun ms s =>
    s.stage = .leaving report ∨ s.stage = .finished (.stopped .stopCommand report) →
      ∃ e ∈ history p (p.start w o) ms, e.Signs p report) ?_ ?_ h hs
  · rintro (hs | hs) <;> cases hs
  · intro ms m s s' hms hm ih hs'
    rw [history_concat hms hm]
    have hmore : (∃ e ∈ history p (p.start w o) ms, e.Signs p report) →
        ∃ e ∈ history p (p.start w o) ms ++ [⟨s, m, s'⟩], e.Signs p report := by
      rintro ⟨e, he, hsigns⟩
      exact ⟨e, List.mem_append_left _ he, hsigns⟩
    have horigin := (move_passage hm).origin
    rcases hs' with hs' | hs' <;> rw [hs'] at horigin
    · rcases horigin with hsame | ⟨rfl, hs⟩
      · exact hmore (ih (.inl hsame.symm))
      · refine ⟨⟨s, .main, s'⟩, by simp, hs, ?_⟩
        rw [State.move, mainStep, hs] at hm
        exact (Option.some.inj hm).symm
    · rcases horigin with hsame | hs
      · exact hmore (ih (.inr hsame.symm))
      · exact hmore (ih (.inl hs))

theorem tried (hsup : p.role.isSupervised = true) {w : StopWatch} (hw : p.watch = some w)
    {worker : Worker} {o : σ} {ms : List (Move σ)} (h : (p.start worker o).moves p ms = some s) :
    Tried p w (history p (p.start worker o) ms) s := by
  refine State.moves_induction (motive := fun ms s =>
    Tried p w (history p (p.start worker o) ms) s) ?_ ?_ h
  · constructor
    · intro last left attempt hs
      cases hs
    · rintro (hleg | hleg) <;> cases hleg
  · intro ms m s s' hms hm ih
    rw [history_concat hms hm]
    exact ih.concat hsup hw hm

/-! ## 3. The ending -/

/-- Nobody but the monitor gives the monitor's reason, so the reason tells who was first. -/
theorem first_monitor_iff {w : Worker} {o : σ} {ms : List (Move σ)}
    (h : (p.start w o).moves p ms = some s)
    (hreasons : ∀ reason, Move.record reason ∈ ms → reason ≠ parentLost) :
    (callers p (p.start w o) ms).head? = some .monitor ↔
      s.interrupt.reason = some parentLost := by
  rw [reason_eq h]
  constructor
  · intro hfirst
    rw [hfirst]
    rfl
  · intro hreason
    obtain ⟨caller, hfirst, hgives⟩ := Option.map_eq_some_iff.mp hreason
    cases caller with
    | monitor => exact hfirst
    | mainTask => exact absurd hgives (by decide)
    | other reason =>
      obtain ⟨e, he, hcalls⟩ := (mem_collect_iff h).mp (List.mem_of_mem_head? hfirst)
      have hm := mem_of_mem_history h he
      cases hmove : e.move with
      | record r =>
        rw [hmove] at hcalls hm
        obtain rfl : reason = r := by simpa [State.callers] using hcalls
        exact absurd hgives (hreasons reason hm)
      | main | guardian =>
        simp only [hmove, State.callers] at hcalls
        split at hcalls <;> simp at hcalls
      | _ =>
        rw [hmove] at hcalls
        cases hcalls

/-- The ending of a supervised run is the one that its causes call for. -/
structure Caused (p : Plan σ) (w : StopWatch) (s₀ : State σ) (ms : List (Move σ))
    (ending : Ending) : Prop where
  orphaned : ending = .orphaned ↔
    .interrupted ∈ releases p s₀ ms ∧ (callers p s₀ ms).head? = some .monitor
  stopped : ending ≠ .orphaned → ∃ trigger report, ending = .stopped trigger report ∧
    (trigger = .stopCommand ↔ ∃ l ∈ looks p s₀ ms, l.found = true)
  /-- There is one more look after an interrupt, unless it is the monitor's. -/
  second : .interrupted ∈ releases p s₀ ms → (callers p s₀ ms).head? ≠ some .monitor →
    ∃ e ∈ history p s₀ ms, e.move = .main ∧ e.before.stage = .polling true
  once : (looks p s₀ ms).countP Look.last =
    if .interrupted ∈ releases p s₀ ms ∧ (callers p s₀ ms).head? ≠ some .monitor then 1 else 0
  /-- A marker that a look finds is never lost. -/
  marker : ∀ e ∈ history p s₀ ms, e.move = .main → ∀ last, e.before.stage = .polling last →
    sees p w e.before = true → ∃ report, ending = .stopped .stopCommand report ∧
      (∃ e ∈ history p s₀ ms, e.Removes p w) ∧ ∃ e ∈ history p s₀ ms, e.Signs p report

theorem found_iff {reason : Option String} {trigger : StopTrigger} {ls : List Look}
    {rs : List StopTrigger} (h : Seen reason (.closing trigger) ls rs) :
    trigger = .stopCommand ↔ ∃ l ∈ ls, l.found = true := by
  cases h with
  | obeyed n => exact ⟨fun _ => ⟨⟨false, true⟩, by simp, rfl⟩, fun _ => rfl⟩
  | foundLate n => exact ⟨fun _ => ⟨⟨true, true⟩, by simp, rfl⟩, fun _ => rfl⟩
  | missedLate n =>
    constructor
    · intro htrigger
      cases htrigger
    · rintro ⟨l, hl, hfound⟩
      rcases List.mem_append.mp hl with hl | hl
      · rw [List.eq_of_mem_replicate hl] at hfound
        cases hfound
      · rw [List.mem_singleton.mp hl] at hfound
        cases hfound

theorem look_event {ms : List (Move σ)} (h : s₀.moves p ms = some s) {l : Look}
    (hl : l ∈ looks p s₀ ms) :
    ∃ e ∈ history p s₀ ms, e.move = .main ∧ e.before.stage = .polling l.last := by
  obtain ⟨e, he, hlook⟩ := (mem_collect_iff h).mp hl
  unfold State.looks at hlook
  split at hlook
  · rename_i hmain
    split at hlook
    · rename_i hpolling _
      rw [List.mem_singleton.mp hlook]
      exact ⟨e, he, hmain, hpolling⟩
    · cases hlook
  · cases hlook

theorem last_idle (n : Nat) : (idle n).countP Look.last = 0 := by
  rw [List.countP_eq_zero]
  intro l hl
  rw [List.eq_of_mem_replicate hl]
  exact Bool.false_ne_true

/-- A run that has found its marker is past the watch. -/
theorem Seen.past_watch {reason : Option String} {leg : Leg} {ls : List Look}
    {rs : List StopTrigger} (h : Seen reason leg ls rs) (hfound : ∃ l ∈ ls, l.found = true) :
    leg ≠ .watch := by
  rintro rfl
  obtain ⟨l, hl, hfound⟩ := hfound
  cases h with
  | watch n =>
    rw [List.eq_of_mem_replicate hl] at hfound
    cases hfound

theorem isWatch_leg {stage : Stage} (h : stage.isWatch = true) : stage.leg = .watch := by
  unfold Stage.isWatch at h
  split at h <;> first | rfl | cases h

theorem Foreign.ne {reason : Option String} (h : Foreign reason) : reason ≠ some parentLost := by
  obtain ⟨r, rfl, hne⟩ := h
  exact fun heq => hne (Option.some.inj heq)

theorem caused (hsup : p.role.isSupervised = true) {w : StopWatch} (hw : p.watch = some w)
    {worker : Worker} {o : σ} {ms : List (Move σ)} {ending : Ending}
    (h : (p.start worker o).moves p ms = some s)
    (hreasons : ∀ reason, Move.record reason ∈ ms → reason ≠ parentLost)
    (hbooted : s.stage.isBooted = true) (hs : s.stage = .finished ending) :
    Caused p w (p.start worker o) ms ending := by
  have hseen := seen hsup h
  have hfirst := first_monitor_iff h hreasons
  rw [hs] at hseen hbooted
  -- A look that finds the marker leads to the stop command, and that only after a removal.
  have hmarker : ∀ e ∈ history p (p.start worker o) ms, e.move = .main → ∀ last,
      e.before.stage = .polling last → sees p w e.before = true →
      ∃ l ∈ looks p (p.start worker o) ms, l.found = true := by
    intro e he hmain last hpolling hsees
    refine ⟨⟨last, true⟩, (mem_collect_iff h).mpr ⟨e, he, ?_⟩, rfl⟩
    simp [State.looks, hmain, hpolling, hw, hsees]
  cases ending with
  | bootFailed => cases hbooted
  | orphaned =>
    generalize hls : looks p (p.start worker o) ms = ls at hseen hmarker
    generalize hrs : releases p (p.start worker o) ms = rs at hseen
    cases hseen with
    | orphaned n hlost =>
      refine ⟨?_, fun hne => absurd rfl hne, ?_, ?_, ?_⟩
      · rw [hrs]
        exact ⟨fun _ => ⟨List.mem_singleton_self _, hfirst.mpr hlost⟩, fun _ => rfl⟩
      · exact fun _ hne => absurd (hfirst.mpr hlost) hne
      · rw [hls, last_idle, if_neg fun hnot => hnot.2 (hfirst.mpr hlost)]
      · intro e he hmain last hpolling hsees
        obtain ⟨l, hl, hfound⟩ := hmarker e he hmain last hpolling hsees
        rw [List.eq_of_mem_replicate hl] at hfound
        cases hfound
  | stopped trigger report =>
    have hfound := found_iff hseen
    have hlook := fun l => @look_event σ p s (p.start worker o) ms h l
    refine ⟨?_, fun _ => ⟨trigger, report, rfl, hfound⟩, ?_, ?_, ?_⟩
    · constructor
      · intro hending
        cases hending
      · rintro ⟨hreleased, hmonitor⟩
        have hlost := hfirst.mp hmonitor
        generalize looks p (p.start worker o) ms = ls at hseen
        generalize releases p (p.start worker o) ms = rs at hseen hreleased
        cases hseen with
        | obeyed n => simp at hreleased
        | foundLate n hforeign | missedLate n hforeign => exact absurd hlost hforeign.ne
    · intro hreleased _
      generalize looks p (p.start worker o) ms = ls at hseen hlook
      generalize releases p (p.start worker o) ms = rs at hseen hreleased
      cases hseen with
      | obeyed n => simp at hreleased
      | foundLate n => exact hlook ⟨true, true⟩ (by simp)
      | missedLate n => exact hlook ⟨true, false⟩ (by simp)
    · generalize looks p (p.start worker o) ms = ls at hseen
      generalize releases p (p.start worker o) ms = rs at hseen
      cases hseen with
      | obeyed n => rw [List.countP_append, last_idle, if_neg (by simp)]; rfl
      | foundLate n hforeign | missedLate n hforeign =>
        rw [List.countP_append, last_idle,
          if_pos ⟨List.mem_singleton_self _, fun hm => hforeign.ne (hfirst.mp hm)⟩]
        rfl
    · intro e he hmain last hpolling hsees
      obtain rfl := hfound.mpr (hmarker e he hmain last hpolling hsees)
      exact ⟨report, rfl, (tried hsup hw h).removed (.inr (by rw [hs]; rfl)), signed h (.inr hs)⟩

/-- However interrupts, looks for the marker, its removal and the answers about the agent come to
pass, a supervised run whose services are started ends as its causes call for.

As soon as the interrupt is raised or the marker was found, the main task is never stuck and only so
many of its turns are left. When the run has ended, it leaves its agent alone exactly if the
interrupt released the watch and the monitor was the first to give a reason; else it stops, by the
stop command exactly if a look found the marker. The first reason stays, and another trigger leaves
the run as it is. -/
theorem ends_as_caused (hsup : p.role.isSupervised = true) {w : StopWatch}
    (hw : p.watch = some w) {worker : Worker} {o : σ} {ms : List (Move σ)}
    (h : (p.start worker o).moves p ms = some s)
    (hreasons : ∀ reason, Move.record reason ∈ ms → reason ≠ parentLost)
    (hbooted : s.stage.isBooted = true) :
    (s.interrupt.raised = true ∨ (∃ l ∈ looks p (p.start worker o) ms, l.found = true) →
      ∀ ms' s', s.moves p ms' = some s' →
        (s'.ending? = none → ∃ m, m.isTurn = true ∧ (s'.move p m).isSome = true) ∧
        ms'.countP Move.isTurn ≤ s.distance w + 2 * ms'.countP Move.isRegistration) ∧
    (∀ ending, s.ending? = some ending → Caused p w (p.start worker o) ms ending) ∧
    s.interrupt.reason = (callers p (p.start worker o) ms).head?.map Caller.reason ∧
    (s.interrupt.reason.isSome = true → ∀ reason, s.record reason = s) ∧
    (s.interrupt.raised = true → s.interrupt.reason.isSome = true ∧ s.raise = s) := by
  refine ⟨?_, ?_, reason_eq h, record_idle, ?_⟩
  · intro hcause ms' s' h'
    have hunder : s.UnderWay := by
      refine ⟨orderly_run h, hbooted, fun hwatch => ?_⟩
      rcases hcause with hraised | hfound
      · exact hraised
      · exact absurd (isWatch_leg hwatch) ((seen hsup h).past_watch hfound)
    exact ⟨turn_possible hw, Nat.le_of_add_left_le (turns_le hw hunder h')⟩
  · intro ending hending
    exact caused hsup hw h hreasons hbooted (ending_stage hending)
  · intro hraised
    exact ⟨(reasoned h).raised hraised, raise_idle hraised⟩

/-! A run is interrupted, and its marker appears before the last look. -/

def markerFiles : FileSystem Bool where
  probe _ there := (if there then .ok () else .error .missing, there)
  inspect _ there := (.error .missing, there)
  list _ there := (.error .missing, there)
  remove _ _ := (.ok (), false)
  openFile _ there := (.error .missing, there)
  tryLock _ there := (.ok false, there)
  unlock _ there := there

def watchedRun : Plan Bool where
  settings := Settings.default
  role := .supervised ⟨"4", "svc"⟩
  catalog := ⟨[]⟩
  processId := "1"
  clock := .masked
  files := markerFiles
  time _ := ⟨0, 0⟩
  sample there := (.zero, there)
  roundFinished there := there
  housekeeping := none

def lateMarker : List (Move Bool) :=
  [.main, .main, .main, .main, .record "signal", .raise, .main, .main, .outside fun _ => true,
    .main, .main, .main, .main, .main, .giveUp] ++ List.replicate 7 .main

theorem ends_as_caused_late_marker :
    let s₀ := watchedRun.start (Worker.fresh (.ofStreams .unlimited .unlimited)) false
    ∃ s w report, s₀.moves watchedRun lateMarker = some s ∧
      s.ending? = some (.stopped .stopCommand report) ∧
      looks watchedRun s₀ lateMarker = [⟨false, false⟩, ⟨true, true⟩] ∧
      Caused watchedRun w s₀ lateMarker (.stopped .stopCommand report) := by
  intro s₀
  have hending : (s₀.moves watchedRun lateMarker).bind State.ending? =
      some (.stopped .stopCommand ⟨⟨0, 0⟩, ⟨0, 0⟩, .zero, watchedRun.hookLimit, []⟩) := by
    decide +kernel
  obtain ⟨s, hrun, hs⟩ := Option.bind_eq_some_iff.mp hending
  have hreasons : ∀ reason, Move.record reason ∈ lateMarker → reason ≠ parentLost := by
    intro reason hreason
    obtain rfl : reason = "signal" := by simpa [lateMarker] using hreason
    decide
  have hbooted : s.stage.isBooted = true := by
    rw [ending_stage hs]
    rfl
  exact ⟨s, _, _, hrun, hs, by decide +kernel,
    (ends_as_caused rfl rfl hrun hreasons hbooted).2.1 _ hs⟩

end Run

end SupervisedWorker
