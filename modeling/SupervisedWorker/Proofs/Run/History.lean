import Mathlib.Data.List.Induction
import SupervisedWorker.Run.Moves

/-!
# What has happened so far

A run is known by its moves. `collect` gathers what the moves contribute, each in the state that it
was taken in, and `history` keeps the moves together with the states before and after them.

Results:
1. `State.moves_induction`: what a run preserves, from what one more move preserves.
2. `mem_history_iff`: an event of a history is a move that was taken in that place.
-/

namespace SupervisedWorker

namespace Run

variable {σ : Type} {p : Plan σ} {s s' s₀ : State σ}

/-! ## 1. Moves one after the other -/

/-- Moves one after the other, in two parts. -/
theorem State.moves_append (p : Plan σ) (s : State σ) (ms ms' : List (Move σ)) :
    s.moves p (ms ++ ms') = (s.moves p ms).bind fun t => t.moves p ms' := by
  induction ms generalizing s with
  | nil => rfl
  | cons first ms ih =>
    rw [List.cons_append, State.moves, State.moves]
    cases s.move p first with
    | none => rfl
    | some t => exact ih t

/-- Moves one after the other, the last one apart. -/
theorem State.moves_concat (p : Plan σ) (s : State σ) (ms : List (Move σ)) (m : Move σ) :
    s.moves p (ms ++ [m]) = (s.moves p ms).bind fun t => t.move p m := by
  rw [State.moves_append]
  congr 1
  funext t
  rw [State.moves]
  cases t.move p m <;> rfl

theorem State.moves_concat_some {ms : List (Move σ)} {m : Move σ}
    (h : s₀.moves p (ms ++ [m]) = some s') :
    ∃ s, s₀.moves p ms = some s ∧ s.move p m = some s' := by
  rw [State.moves_concat] at h
  exact Option.bind_eq_some_iff.mp h

theorem State.moves_append_some {ms ms' : List (Move σ)}
    (h : s₀.moves p (ms ++ ms') = some s') :
    ∃ s, s₀.moves p ms = some s ∧ s.moves p ms' = some s' := by
  rw [State.moves_append] at h
  exact Option.bind_eq_some_iff.mp h

theorem State.moves_trans {ms ms' : List (Move σ)} (h : s₀.moves p ms = some s)
    (h' : s.moves p ms' = some s') : s₀.moves p (ms ++ ms') = some s' := by
  rw [State.moves_append, h, Option.bind_some, h']

/-- What holds at the start and is kept by every further move holds after any moves. -/
theorem State.moves_induction {motive : List (Move σ) → State σ → Prop} (nil : motive [] s₀)
    (concat : ∀ ms m s s', s₀.moves p ms = some s → s.move p m = some s' → motive ms s →
      motive (ms ++ [m]) s')
    {ms : List (Move σ)} (h : s₀.moves p ms = some s) : motive ms s := by
  induction ms using List.reverseRecOn generalizing s with
  | nil =>
    cases h
    exact nil
  | append_singleton ms m ih =>
    obtain ⟨t, ht, hm⟩ := State.moves_concat_some h
    exact concat ms m t s ht hm (ih ht)

/-- What the moves of a run contribute, in order. -/
def collect {β : Type} (p : Plan σ) (f : State σ → Move σ → List β) :
    State σ → List (Move σ) → List β
  | _, [] => []
  | s, m :: ms =>
    f s m ++ match s.move p m with
      | some s => collect p f s ms
      | none => []

theorem collect_append {β : Type} (f : State σ → Move σ → List β) {ms : List (Move σ)}
    (h : s₀.moves p ms = some s) (ms' : List (Move σ)) :
    collect p f s₀ (ms ++ ms') = collect p f s₀ ms ++ collect p f s ms' := by
  induction ms generalizing s₀ with
  | nil =>
    cases h
    rfl
  | cons first ms ih =>
    obtain ⟨t, ht, hrest⟩ := Option.bind_eq_some_iff.mp h
    rw [List.cons_append, collect, collect, ht]
    dsimp only
    rw [ih hrest, List.append_assoc]

theorem collect_concat {β : Type} (f : State σ → Move σ → List β) {ms : List (Move σ)}
    (h : s₀.moves p ms = some s) (m : Move σ) :
    collect p f s₀ (ms ++ [m]) = collect p f s₀ ms ++ f s m := by
  rw [collect_append f h]
  congr 1
  rw [collect]
  cases s.move p m <;> simp [collect]

/-! ## 2. Events -/

/-- A move that was taken, with the states before and after it. -/
structure Event (σ : Type) where
  before : State σ
  move : Move σ
  after : State σ

/-- The moves that were taken. -/
def history (p : Plan σ) (s₀ : State σ) (ms : List (Move σ)) : List (Event σ) :=
  collect p (fun s m => (s.move p m).toList.map fun s' => ⟨s, m, s'⟩) s₀ ms

theorem history_concat {ms : List (Move σ)} {m : Move σ} (h : s₀.moves p ms = some s)
    (h' : s.move p m = some s') :
    history p s₀ (ms ++ [m]) = history p s₀ ms ++ [⟨s, m, s'⟩] := by
  rw [history, collect_concat _ h, h']
  rfl

theorem history_cons {m : Move σ} (h : s.move p m = some s') (ms : List (Move σ)) :
    history p s (m :: ms) = ⟨s, m, s'⟩ :: history p s' ms := by
  rw [history, collect, h]
  rfl

/-- The events of a run are its moves, each with the states that it led from and to. -/
theorem mem_history_iff {ms : List (Move σ)} (h : s₀.moves p ms = some s) {e : Event σ} :
    e ∈ history p s₀ ms ↔ ∃ before after, ms = before ++ e.move :: after ∧
      s₀.moves p before = some e.before ∧ e.before.move p e.move = some e.after := by
  induction ms generalizing s₀ with
  | nil => simp [history, collect]
  | cons first ms ih =>
    obtain ⟨t, ht, hrest⟩ := Option.bind_eq_some_iff.mp h
    rw [history_cons ht, List.mem_cons, ih hrest]
    constructor
    · rintro (rfl | ⟨before, after, rfl, hbefore, hmove⟩)
      · exact ⟨[], ms, rfl, rfl, ht⟩
      · refine ⟨first :: before, after, rfl, ?_, hmove⟩
        rw [State.moves, ht]
        exact hbefore
    · rintro ⟨_ | ⟨m, before⟩, after, heq, hbefore, hmove⟩
      · cases heq
        cases hbefore
        rw [ht] at hmove
        cases hmove
        exact .inl rfl
      · cases heq
        rw [State.moves, ht] at hbefore
        exact .inr ⟨before, after, rfl, hbefore, hmove⟩

theorem mem_of_mem_history {ms : List (Move σ)} (h : s₀.moves p ms = some s) {e : Event σ}
    (he : e ∈ history p s₀ ms) : e.move ∈ ms := by
  obtain ⟨before, after, rfl, _⟩ := (mem_history_iff h).mp he
  exact List.mem_append_right _ List.mem_cons_self

/-- What is collected is what the events contribute. -/
theorem mem_collect_iff {β : Type} {f : State σ → Move σ → List β} {ms : List (Move σ)}
    (h : s₀.moves p ms = some s) {x : β} :
    x ∈ collect p f s₀ ms ↔ ∃ e ∈ history p s₀ ms, x ∈ f e.before e.move := by
  induction ms generalizing s₀ with
  | nil => simp [collect, history]
  | cons first ms ih =>
    obtain ⟨t, ht, hrest⟩ := Option.bind_eq_some_iff.mp h
    rw [history_cons ht, collect, ht, List.mem_append, ih hrest]
    simp only [List.mem_cons, exists_eq_or_imp]

end Run

end SupervisedWorker
