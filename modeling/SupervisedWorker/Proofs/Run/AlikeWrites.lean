import SupervisedWorker.Proofs.Run.Alike
import SupervisedWorker.Proofs.Run.Writes

/-!
# Traffic alike but for its consoles

What became of a line is told to nobody but the journal. So two runs that differ in their consoles
only go on to do so when the looks at the gate and the writes are taken apart, and whenever the lines
that have passed reach their streams. These need not be the same lines: entries about lines that did
not get through are shown as well.

Results:
1. `Alike.move`, `Alike.land`: every move but a landing is possible in both or in neither, and a landing
   in one of them goes unnoticed.
2. `alike_of_course`: runs of the same course end alike, and what is gathered from their moves is the
   same if it does not depend on the console.
-/

namespace SupervisedWorker

namespace Run

variable {σ : Type} {p : Plan σ} {show? : EntryLine}

/-- Whether the main task stands alike with its lines, whatever the answers to its writes. -/
inductive Voice.Alike : Voice → Voice → Prop
  | silent : Alike .silent .silent
  | admitted : Alike .admitted .admitted
  | written (answer answer' : Except StreamError Unit) : Alike (.written answer) (.written answer')

theorem Voice.Alike.refl (voice : Voice) : voice.Alike voice := by
  cases voice with
  | silent => exact .silent
  | admitted => exact .admitted
  | written answer => exact .written answer answer

theorem Voice.Alike.symm {voice voice' : Voice} (h : voice.Alike voice') : voice'.Alike voice := by
  cases h with
  | silent => exact .silent
  | admitted => exact .admitted
  | written answer answer' => exact .written answer' answer

theorem Voice.Alike.trans {voice voice' voice'' : Voice} (h : voice.Alike voice')
    (h' : voice'.Alike voice'') : voice.Alike voice'' := by
  cases h with
  | silent | admitted => exact h'
  | written answer =>
    cases h' with
    | written _ answer' => exact .written answer answer'

namespace Traffic

/-- Two runs that differ only in their consoles, in their journals and in what is on its way to the
streams. -/
structure Alike (x y : Traffic σ) : Prop where
  runs : x.run.Alike y.run
  voices : x.voice.Alike y.voice

variable {x x' y y' z : Traffic σ} {m : Move σ}

theorem Alike.refl (x : Traffic σ) : x.Alike x := ⟨.refl x.run, .refl x.voice⟩

theorem Alike.symm (h : x.Alike y) : y.Alike x := ⟨h.runs.symm, h.voices.symm⟩

theorem Alike.trans (h : x.Alike y) (h' : y.Alike z) : x.Alike z :=
  ⟨h.runs.trans h'.runs, h.voices.trans h'.voices⟩

/-! ## 1. One move -/

/-- Whether a move neither registers a hook that prints nor is one that prints. -/
def Move.IsSilent : Move σ → Prop
  | .step m => m.IsSilent
  | _ => True

/-- Whether a line reaches its stream. -/
def Move.isLanding : Move σ → Bool
  | .land _ => true
  | _ => false

/-- The traffic lets no hook in. -/
theorem Happens.isSilent (h : Happens p show? x m y) (hp : p.IsSilent) (hm : m.IsSilent)
    (hs : x.run.IsSilent) : y.run.IsSilent := by
  cases h with
  | ran _ hmove => exact hs.move hp hm hmove
  | finished _ hspeech =>
    refine hs.quiet ?_ (speech_phase hspeech)
    exact (State.ledger_goTo _ _).trans (State.ledger_settleLine _ _)
  | looked | passed => exact hs
  | spoke | landed => exact hs.quiet rfl rfl

/-- A step of the run itself. -/
theorem step_eq {m : Run.Move σ} (h : m = .main → x.voice = .silent) :
    x.step p show? m = (x.run.move p m).map (x.carry show?) := by
  cases m with
  | main =>
    unfold step
    rw [h rfl]
  | _ => rfl

theorem Alike.ran (h : x.Alike y) (hs : x.run.IsSilent) {m : Run.Move σ} (hm : m.IsSilent) :
    Option.Rel Alike ((x.run.move p m).map (x.carry show?))
      ((y.run.move p m).map (y.carry show?)) := by
  have hrel := move_alike (p := p) h.runs hs hm
  generalize x.run.move p m = s? at hrel ⊢
  generalize y.run.move p m = t? at hrel ⊢
  cases hrel with
  | none => exact .none
  | some halike => exact .some ⟨halike, h.voices⟩

theorem Alike.step (h : x.Alike y) (hs : x.run.IsSilent) {m : Run.Move σ} (hm : m.IsSilent) :
    Option.Rel Alike (x.step p show? m) (y.step p show? m) := by
  have hran : Option.Rel Alike ((x.run.move p m).map (x.carry show?))
      ((y.run.move p m).map (y.carry show?)) := h.ran hs hm
  obtain ⟨s, voice, passed⟩ := x
  obtain ⟨t, voice', passed'⟩ := y
  have hvoices : voice.Alike voice' := h.voices
  by_cases hmain : m = .main
  · obtain rfl := hmain
    cases hvoices with
    | silent => exact hran
    | admitted => exact .none
    | written answer answer' =>
      have hstage : t.stage = s.stage := h.runs.stage
      simp only [Traffic.step, hstage]
      cases s.stage.speech? p with
      | none => exact hran
      | some speech =>
        have hsettled : (s.settleLine answer).Alike (t.settleLine answer') :=
          ((State.alike_settleLine answer s).symm.trans h.runs).trans
            (State.alike_settleLine answer' t)
        exact .some ⟨hsettled.goTo _, .silent⟩
  · rw [step_eq fun heq => absurd heq hmain, step_eq fun heq => absurd heq hmain]
    exact hran

/-- Every move but a landing is possible in both runs or in neither. -/
theorem Alike.move (h : x.Alike y) (hs : x.run.IsSilent) (hm : m.IsSilent)
    (hland : m.isLanding = false) : Option.Rel Alike (x.move p show? m) (y.move p show? m) := by
  have hstage := h.runs.stage
  have hsuppressed := h.runs.workers.suppressed
  cases m with
  | step m => exact h.step hs hm
  | look =>
    simp only [Traffic.move, hstage, hsuppressed]
    obtain ⟨s, voice, passed⟩ := x
    obtain ⟨t, voice', passed'⟩ := y
    have hvoices : voice.Alike voice' := h.voices
    cases hvoices with
    | silent =>
      dsimp only
      split
      · exact .some ⟨h.runs, .admitted⟩
      · exact .none
    | admitted | written => exact .none
  | speak =>
    simp only [Traffic.move, hstage]
    obtain ⟨s, voice, passed⟩ := x
    obtain ⟨t, voice', passed'⟩ := y
    have hvoices : voice.Alike voice' := h.voices
    cases hvoices with
    | admitted =>
      cases s.stage.speech? p with
      | none => exact .none
      | some speech =>
        have hput (s : State σ) : s.Alike { s with
            worker := { s.worker with gate := (s.worker.gate.putLine .out speech.1).2 } } :=
          State.alike_gate (Gate.suppressed_putLine ..)
        exact .some ⟨((hput s).symm.trans h.runs).trans (hput t), .written _ _⟩
    | silent | written => exact .none
  | pass side line =>
    simp only [Traffic.move, hsuppressed]
    split
    · exact .none
    · exact .some ⟨h.runs, h.voices⟩
  | land number => cases hland

/-- A landing goes unnoticed. -/
theorem Alike.land (h : x.Alike y) {number : Nat}
    (hx : x.move p show? (.land number) = some x') : x'.Alike y := by
  obtain ⟨⟨side, line⟩, _, rfl⟩ := Option.map_eq_some_iff.mp hx
  exact ⟨(State.alike_gate (Gate.suppressed_putLine ..)).symm.trans h.runs, h.voices⟩

/-! ## 2. Whole runs -/

/-- The course of a run: its moves without the landings. -/
def course (ms : List (Move σ)) : List (Move σ) := ms.filter fun m => !m.isLanding

/-- What the moves of the traffic contribute, in order. -/
def collect {β : Type} (p : Plan σ) (show? : EntryLine) (f : Traffic σ → Move σ → List β) :
    Traffic σ → List (Move σ) → List β
  | _, [] => []
  | x, m :: ms =>
    f x m ++ match x.move p show? m with
      | some y => y.collect p show? f ms
      | none => []

/-- What depends neither on the console nor on landings. -/
structure Blind {β : Type} (f : Traffic σ → Move σ → List β) : Prop where
  alike : ∀ {x y : Traffic σ} {m : Move σ}, x.Alike y → x.run.IsSilent → f y m = f x m
  landing : ∀ (x : Traffic σ) (number : Nat), f x (.land number) = []

/-- Where one run leads, the other can be led without a landing. -/
theorem Alike.follow (hp : p.IsSilent) (h : x.Alike y) (hs : x.run.IsSilent) {ms : List (Move σ)}
    (hms : ∀ m ∈ ms, m.IsSilent) (hx : x.moves p show? ms = some x') :
    ∃ y', y.moves p show? (course ms) = some y' ∧ x'.Alike y' ∧
      ∀ {β : Type} (f : Traffic σ → Move σ → List β), Blind f →
        y.collect p show? f (course ms) = x.collect p show? f ms := by
  induction ms generalizing x y with
  | nil =>
    cases hx
    exact ⟨y, rfl, h, fun _ _ => rfl⟩
  | cons m ms ih =>
    obtain ⟨z, hz, hrest⟩ := Option.bind_eq_some_iff.mp hx
    have hm := hms m List.mem_cons_self
    have hms' := fun m hm => hms m (List.mem_cons_of_mem _ hm)
    have hsilent := (happens_of_move hz).isSilent hp hm hs
    cases hland : m.isLanding with
    | true =>
      have hcourse : course (m :: ms) = course ms := by simp [course, hland]
      obtain ⟨number, rfl⟩ : ∃ number, m = .land number := by
        cases m with
        | land number => exact ⟨number, rfl⟩
        | _ => cases hland
      obtain ⟨y', hy, halike, hcollect⟩ := ih (h.land hz) hsilent hms' hrest
      rw [hcourse]
      refine ⟨y', hy, halike, fun f hf => ?_⟩
      rw [hcollect f hf, collect, hf.landing, hz]
      rfl
    | false =>
      have hcourse : course (m :: ms) = m :: course ms := by simp [course, hland]
      have hrel : Option.Rel Alike (x.move p show? m) (y.move p show? m) := h.move hs hm hland
      rw [hz] at hrel
      generalize hw : y.move p show? m = w? at hrel
      obtain ⟨halike⟩ := hrel
      obtain ⟨y', hy, halike', hcollect⟩ := ih halike hsilent hms' hrest
      rw [hcourse]
      refine ⟨y', ?_, halike', fun f hf => ?_⟩
      · rw [moves, hw]
        exact hy
      · rw [collect, collect, hw, hz, hf.alike h hs]
        exact congrArg _ (hcollect f hf)

/-- Runs of the same course end alike. -/
theorem alike_of_course (hp : p.IsSilent) (h : x.Alike y) (hs : x.run.IsSilent)
    (hs' : y.run.IsSilent) {ms ms' : List (Move σ)} (hms : ∀ m ∈ ms, m.IsSilent)
    (hms' : ∀ m ∈ ms', m.IsSilent) (hcourse : course ms = course ms')
    (hx : x.moves p show? ms = some x') (hy : y.moves p show? ms' = some y') :
    x'.Alike y' ∧ ∀ {β : Type} (f : Traffic σ → Move σ → List β), Blind f →
      x.collect p show? f ms = y.collect p show? f ms' := by
  obtain ⟨z, hz, halike, hcollect⟩ := h.follow hp hs hms hx
  obtain ⟨z', hz', halike', hcollect'⟩ := (Alike.refl y).follow hp hs' hms' hy
  rw [hcourse] at hz hcollect
  rw [hz] at hz'
  cases hz'
  exact ⟨halike.trans halike'.symm, fun f hf => (hcollect f hf).symm.trans (hcollect' f hf)⟩

end Traffic

end Run

end SupervisedWorker
