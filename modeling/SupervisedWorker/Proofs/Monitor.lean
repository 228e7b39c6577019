import Mathlib.Data.List.Forall2
import Mathlib.Data.List.Induction
import SupervisedWorker.Monitor.Script

/-!
# Whole runs of the monitor

The monitor goes from round to round while others change its surroundings, and they may cancel it
at any moment. A run is followed with a note of every call that the monitor makes.

Results:
1. `step_noting`: a run with notes is the run.
2. `ended_first_iff`: the monitor ends with the first step that finds a reason to.
3. `Tracks.whole`, `Whole.counts`: the notes are those of whole rounds, one after the other.
4. `isEnded_of_cancelled`: a monitor that is cancelled for good ends soon.
5. `sameEnd_of_alike`: neither samples nor housekeeping matter to when and how the monitor ends.
6. `course_of_run`: all of it about runs from the start.
-/

namespace SupervisedWorker

namespace Monitor

variable {σ τ : Type} {m : Monitor} {around : Surroundings σ} {phase : Phase} {s : σ}

/-! ## 1. Runs and notes -/

/-- One thing that happens while the monitor runs. -/
inductive Turn (σ : Type)
  /-- The monitor takes its next step. -/
  | monitor
  /-- Somebody else changes the surroundings. -/
  | outside (change : σ → σ)

def Turn.isMonitor : Turn σ → Bool
  | .monitor => true
  | .outside _ => false

def Turn.take (m : Monitor) (around : Surroundings σ) (x : Phase × σ) : Turn σ → Phase × σ
  | .monitor => m.step around x.1 x.2
  | .outside change => (x.1, change x.2)

def along (m : Monitor) (around : Surroundings σ) : List (Turn σ) → Phase × σ → Phase × σ
  | [], x => x
  | t :: turns, x => m.along around turns (t.take m around x)

theorem along_append (turns more : List (Turn σ)) (x : Phase × σ) :
    m.along around (turns ++ more) x = m.along around more (m.along around turns x) := by
  induction turns generalizing x with
  | nil => rfl
  | cons t turns ih => exact ih (t.take m around x)

/-- A call that the monitor makes. -/
inductive Event
  | sampled (total : Duration)
  | wrote (e : JournalEntry)
  | keptHouse
  | asked (life : AgentLife)
  | finishedRound
deriving DecidableEq

def Event.callee? : Event → Option Callee
  | .sampled _ => some .sample
  | .wrote _ => none
  | .keptHouse => some .housekeeping
  | .asked _ => some .agent
  | .finishedRound => some .roundFinished

def callees (es : List Event) : List Callee := es.filterMap Event.callee?

/-- The same surroundings, where every call is noted. -/
def Surroundings.noting (around : Surroundings σ) : Surroundings (σ × List Event) where
  cancelled x := around.cancelled x.1
  sample x :=
    ((around.sample x.1).1, (around.sample x.1).2, x.2 ++ [.sampled (around.sample x.1).1])
  housekeeping := around.housekeeping.map fun tick x => (tick x.1, x.2 ++ [.keptHouse])
  agent := around.agent.map fun ask x => ((ask x.1).1, (ask x.1).2, x.2 ++ [.asked (ask x.1).1])
  roundFinished x := (around.roundFinished x.1, x.2 ++ [.finishedRound])
  write e x := (around.write e x.1, x.2 ++ [.wrote e])

/-- Who changes the surroundings leaves the notes alone. -/
def Turn.noting : Turn σ → Turn (σ × List Event)
  | .monitor => .monitor
  | .outside change => .outside fun x => (change x.1, x.2)

/-- What the housekeeping of one round changes, if there is any. -/
def Surroundings.house (around : Surroundings σ) (s : σ) : σ :=
  match around.housekeeping with
  | some tick => tick s
  | none => s

/-- What is heard about the agent; where there is none, nothing is wrong with it. -/
def Surroundings.hear (around : Surroundings σ) (s : σ) : AgentLife × σ :=
  match around.agent with
  | some ask => ask s
  | none => (.alive, s)

/-- The calls of the first half of a round. -/
def sampleEvents (m : Monitor) (last total : Duration) : List Event :=
  .sampled total :: if m.pauseWarning < total - last then
    [.wrote (pauseEntry (total - last) m.pauseWarning)] else []

def Surroundings.houseEvents (around : Surroundings σ) : List Event :=
  if around.housekeeping.isSome then [.keptHouse] else []

def Surroundings.lifeEvents (around : Surroundings σ) (life : AgentLife) : List Event :=
  if around.agent.isSome then [.asked life] else []

def stepEvents (m : Monitor) (around : Surroundings σ) : Phase → σ → List Event
  | .starting, s => [.sampled (around.sample s).1]
  | .asleep last, s =>
    if around.cancelled s then [] else m.sampleEvents last (around.sample s).1
  | .sampled _, _ => around.houseEvents
  | .kept _, s => around.lifeEvents (around.hear s).1
  | .checked _, _ => [.finishedRound]
  | .ended _, _ => []

theorem step_sampled (last : Duration) (s : σ) :
    m.step around (.sampled last) s = (.kept last, around.house s) := by
  rw [step, Surroundings.house]
  cases around.housekeeping <;> rfl

theorem step_kept (last : Duration) (s : σ) : m.step around (.kept last) s =
    (if (around.hear s).1 = .dead then .ended .parentLost else .checked last,
      (around.hear s).2) := by
  rw [step, Surroundings.hear]
  cases around.agent with
  | none => rfl
  | some ask => rcases hask : ask s with ⟨_ | _, s'⟩ <;> simp [hask]

theorem house_noting (x : σ × List Event) :
    around.noting.house x = (around.house x.1, x.2 ++ around.houseEvents) := by
  rw [Surroundings.house, Surroundings.house, Surroundings.houseEvents, Surroundings.noting]
  cases around.housekeeping <;> simp

theorem hear_noting (x : σ × List Event) : around.noting.hear x =
    ((around.hear x.1).1, (around.hear x.1).2, x.2 ++ around.lifeEvents (around.hear x.1).1) := by
  rw [Surroundings.hear, Surroundings.hear, Surroundings.lifeEvents, Surroundings.noting]
  cases around.agent <;> simp

theorem step_noting (phase : Phase) (s : σ) (es : List Event) :
    m.step around.noting phase (s, es) = ((m.step around phase s).1, (m.step around phase s).2,
      es ++ m.stepEvents around phase s) := by
  cases phase with
  | starting => rfl
  | asleep last =>
    by_cases hcancelled : around.cancelled s = true
    · simp [step, stepEvents, Surroundings.noting, hcancelled]
    · by_cases hpause : m.pauseWarning < (around.sample s).1 - last
      · simp [step, stepEvents, Surroundings.noting, hcancelled, sampleRound, sampleEvents, hpause]
      · simp [step, stepEvents, Surroundings.noting, hcancelled, sampleRound, sampleEvents, hpause]
  | sampled last => rw [step_sampled, step_sampled, stepEvents, house_noting]
  | kept last => rw [step_kept, step_kept, stepEvents, hear_noting]
  | checked last => rfl
  | ended exit => simp [step, stepEvents]

theorem take_noting (t : Turn σ) (x : Phase × σ) (es : List Event) :
    t.noting.take m around.noting (x.1, x.2, es) = ((t.take m around x).1, (t.take m around x).2,
      es ++ if t.isMonitor then m.stepEvents around x.1 x.2 else []) := by
  cases t with
  | monitor => exact step_noting x.1 x.2 es
  | outside change => simp [Turn.noting, Turn.take, Turn.isMonitor]

/-! ## 2. The end of a run -/

/-- Whether the monitor finds a reason to end when it takes its next step. -/
inductive Sees (around : Surroundings σ) : Exit → Phase → σ → Prop
  /-- The cancellation comes before the end of a sleep. -/
  | asleep {last : Duration} {s : σ} :
      around.cancelled s = true → Sees around .cancelled (.asleep last) s
  /-- The cancellation comes before the end of a round. -/
  | checked {last : Duration} {s : σ} :
      around.cancelled (around.roundFinished s) = true → Sees around .cancelled (.checked last) s
  /-- The agent is dead. -/
  | dead {last : Duration} {s : σ} :
      (around.hear s).1 = .dead → Sees around .parentLost (.kept last) s

def Phase.isEnded : Phase → Bool
  | .ended _ => true
  | _ => false

theorem ended_step_iff {exit : Exit} (hphase : phase.isEnded = false) :
    (m.step around phase s).1 = .ended exit ↔ Sees around exit phase s := by
  cases phase with
  | starting => exact iff_of_false (by simp [step]) nofun
  | asleep last =>
    rw [step]
    split
    · rename_i hcancelled
      constructor
      · rintro ⟨⟩
        exact .asleep hcancelled
      · rintro ⟨⟩
        rfl
    · rename_i hcancelled
      refine iff_of_false (by simp [sampleRound]) ?_
      rintro ⟨h⟩
      exact hcancelled h
  | sampled last =>
    rw [step_sampled]
    exact iff_of_false (by simp) nofun
  | kept last =>
    rw [step_kept]
    split
    · rename_i hdead
      constructor
      · rintro ⟨⟩
        exact .dead hdead
      · rintro ⟨⟩
        rfl
    · rename_i halive
      refine iff_of_false (by simp) ?_
      rintro (_ | _ | h)
      exact halive h
  | checked last =>
    rw [step]
    split
    · rename_i hcancelled
      constructor
      · rintro ⟨⟩
        exact .checked hcancelled
      · rintro ⟨⟩
        rfl
    · rename_i hcancelled
      refine iff_of_false (by simp) ?_
      rintro (_ | h)
      exact hcancelled h
  | ended exit => cases hphase

theorem take_ended_iff {exit : Exit} (t : Turn σ) (x : Phase × σ) :
    (t.take m around x).1 = .ended exit ↔
      x.1 = .ended exit ∨ t = .monitor ∧ Sees around exit x.1 x.2 := by
  obtain ⟨phase, s⟩ := x
  cases t with
  | outside change => simp [Turn.take]
  | monitor =>
    cases phase with
    | ended exit' =>
      refine ⟨.inl, ?_⟩
      rintro (h | ⟨_, ⟨⟩⟩)
      exact h
    | _ =>
      rw [Turn.take, ended_step_iff rfl]
      simp

theorem Sees.isEnded {exit : Exit} (h : Sees around exit phase s) : phase.isEnded = false := by
  cases h <;> rfl

theorem ended_iff {exit : Exit} {turns : List (Turn σ)} {x : Phase × σ}
    (hphase : x.1.isEnded = false) :
    (m.along around turns x).1 = .ended exit ↔ ∃ before after,
      turns = before ++ .monitor :: after ∧
      Sees around exit (m.along around before x).1 (m.along around before x).2 := by
  -- By the last turn: either the run had ended before it, or it is the step that ends the run.
  induction turns using List.reverseRecOn with
  | nil =>
    refine iff_of_false ?_ (by simp)
    intro h
    rw [along] at h
    rw [h] at hphase
    cases hphase
  | append_singleton turns t ih =>
    rw [along_append, along, along, take_ended_iff, ih]
    constructor
    · rintro (⟨before, after, rfl, hsees⟩ | ⟨rfl, hsees⟩)
      · exact ⟨before, after ++ [t], by simp, hsees⟩
      · exact ⟨turns, [], rfl, hsees⟩
    · rintro ⟨before, after, hsplit, hsees⟩
      rcases List.eq_nil_or_concat after with rfl | ⟨after, last, rfl⟩
      · obtain ⟨rfl, ht⟩ := List.append_inj' hsplit rfl
        exact .inr ⟨List.head_eq_of_cons_eq ht, hsees⟩
      · rw [List.concat_eq_append, ← List.cons_append, ← List.append_assoc] at hsplit
        obtain ⟨rfl, -⟩ := List.append_inj' hsplit rfl
        exact .inl ⟨before, after, rfl, hsees⟩

/-- The step that ends a run is the first one that finds a reason. -/
theorem ended_first_iff {exit : Exit} {turns : List (Turn σ)} {x : Phase × σ}
    (hphase : x.1.isEnded = false) :
    (m.along around turns x).1 = .ended exit ↔ ∃ before after,
      turns = before ++ .monitor :: after ∧
      Sees around exit (m.along around before x).1 (m.along around before x).2 ∧
      ∀ earlier later exit', before = earlier ++ .monitor :: later →
        ¬Sees around exit' (m.along around earlier x).1 (m.along around earlier x).2 := by
  rw [ended_iff hphase]
  constructor
  · rintro ⟨before, after, hsplit, hsees⟩
    refine ⟨before, after, hsplit, hsees, ?_⟩
    intro earlier later exit' hbefore hearlier
    have hended := (ended_iff hphase).mpr ⟨earlier, later, hbefore, hearlier⟩
    have hrunning := hsees.isEnded
    rw [hended] at hrunning
    cases hrunning
  · rintro ⟨before, after, hsplit, hsees, _⟩
    exact ⟨before, after, hsplit, hsees⟩

/-- Whoever has ended calls nothing any more. -/
theorem along_ended (exit : Exit) (turns : List (Turn σ)) (s : σ) (es : List Event) :
    ∃ s', m.along around turns (.ended exit, s) = (.ended exit, s') ∧
      m.along around.noting (turns.map Turn.noting) (.ended exit, s, es) =
        (.ended exit, s', es) := by
  induction turns generalizing s with
  | nil => exact ⟨s, rfl, rfl⟩
  | cons t turns ih =>
    cases t with
    | monitor => exact ih s
    | outside change => exact ih (change s)

/-! ## 3. Rounds -/

/-- The calls of a round that is finished. -/
def roundEvents (m : Monitor) (around : Surroundings σ) (last total : Duration) : List Event :=
  m.sampleEvents last total ++ around.houseEvents ++ around.lifeEvents .alive ++ [.finishedRound]

/-- The calls of finished rounds, by what their samples show. -/
def roundsEvents (m : Monitor) (around : Surroundings σ) : Duration → List Duration → List Event
  | _, [] => []
  | last, total :: totals => m.roundEvents around last total ++ m.roundsEvents around total totals

theorem roundsEvents_concat (last total : Duration) (totals : List Duration) :
    m.roundsEvents around last (totals ++ [total]) =
      m.roundsEvents around last totals ++ m.roundEvents around (totals.getLastD last) total := by
  induction totals generalizing last with
  | nil => simp [roundsEvents]
  | cons next totals ih =>
    rw [List.cons_append, roundsEvents, roundsEvents, ih, List.append_assoc, List.getLastD_cons]

/-- The calls of a monitor that has finished rounds and sleeps. -/
def sleepEvents (m : Monitor) (around : Surroundings σ) (first : Duration)
    (totals : List Duration) : List Event :=
  .sampled first :: m.roundsEvents around first totals

theorem sleepEvents_concat (first total : Duration) (totals : List Duration) :
    m.sleepEvents around first (totals ++ [total]) =
      m.sleepEvents around first totals ++ m.roundEvents around (totals.getLastD first) total := by
  rw [sleepEvents, roundsEvents_concat, sleepEvents, List.cons_append]

/-- The notes in a phase, and how many steps the monitor has taken by then. -/
inductive Tracks (m : Monitor) (around : Surroundings σ) : Phase → List Event → Nat → Prop
  | starting : Tracks m around .starting [] 0
  | asleep (first : Duration) (totals : List Duration) :
      Tracks m around (.asleep (totals.getLastD first)) (m.sleepEvents around first totals)
        (4 * totals.length + 1)
  | sampled (first : Duration) (totals : List Duration) (total : Duration) :
      Tracks m around (.sampled total)
        (m.sleepEvents around first totals ++ m.sampleEvents (totals.getLastD first) total)
        (4 * totals.length + 2)
  | kept (first : Duration) (totals : List Duration) (total : Duration) :
      Tracks m around (.kept total)
        (m.sleepEvents around first totals ++ m.sampleEvents (totals.getLastD first) total ++
          around.houseEvents)
        (4 * totals.length + 3)
  | checked (first : Duration) (totals : List Duration) (total : Duration) :
      Tracks m around (.checked total)
        (m.sleepEvents around first totals ++ m.sampleEvents (totals.getLastD first) total ++
          around.houseEvents ++ around.lifeEvents .alive)
        (4 * totals.length + 4)
  /-- Cancelled after whole rounds. -/
  | cancelled (first : Duration) (totals : List Duration) (n : Nat) :
      Tracks m around (.ended .cancelled) (m.sleepEvents around first totals) n
  /-- The last round was broken off. -/
  | lost (first : Duration) (totals : List Duration) (total : Duration) (n : Nat) :
      Tracks m around (.ended .parentLost)
        (m.sleepEvents around first totals ++ m.sampleEvents (totals.getLastD first) total ++
          around.houseEvents ++ around.lifeEvents .dead) n

theorem Tracks.step {es : List Event} {n : Nat} (h : Tracks m around phase es n) (s : σ) :
    Tracks m around (m.step around phase s).1 (es ++ m.stepEvents around phase s) (n + 1) := by
  cases h with
  | starting => exact .asleep (around.sample s).1 []
  | asleep first totals =>
    rw [Monitor.step, stepEvents]
    split
    · rw [List.append_nil]
      exact .cancelled first totals _
    · exact .sampled first totals _
  | sampled first totals total =>
    rw [step_sampled]
    exact .kept first totals total
  | kept first totals total =>
    rw [step_kept, stepEvents]
    cases (around.hear s).1 with
    | alive => exact .checked first totals total
    | dead => exact .lost first totals total _
  | checked first totals total =>
    -- The round is finished, and its calls join those of the rounds before it.
    have hround : m.sleepEvents around first totals ++
        m.sampleEvents (totals.getLastD first) total ++ around.houseEvents ++
        around.lifeEvents .alive ++ m.stepEvents around (.checked total) s =
          m.sleepEvents around first (totals ++ [total]) := by
      rw [sleepEvents_concat]
      simp [roundEvents, stepEvents]
    rw [hround, Monitor.step]
    split
    · exact .cancelled first _ _
    · have hasleep : Tracks m around _ _ _ := .asleep first (totals ++ [total])
      rwa [List.getLastD_concat, List.length_append, Nat.mul_add] at hasleep
  | cancelled first totals =>
    rw [stepEvents, List.append_nil]
    exact .cancelled first totals _
  | lost first totals total =>
    rw [stepEvents, List.append_nil]
    exact .lost first totals total _

theorem tracks_along {x : Phase × σ} {es : List Event} {n : Nat}
    (h : Tracks m around x.1 es n) (turns : List (Turn σ)) :
    ∃ es', m.along around.noting (turns.map Turn.noting) (x.1, x.2, es) =
        ((m.along around turns x).1, (m.along around turns x).2, es') ∧
      Tracks m around (m.along around turns x).1 es' (n + turns.countP Turn.isMonitor) := by
  induction turns generalizing x es n with
  | nil => exact ⟨es, rfl, h⟩
  | cons t turns ih =>
    rw [List.map_cons, along, along, take_noting, List.countP_cons]
    cases t with
    | monitor =>
      obtain ⟨es', hnotes, ht⟩ := ih (h.step x.2)
      refine ⟨es', hnotes, ?_⟩
      rw [Nat.add_right_comm] at ht
      exact ht
    | outside change =>
      obtain ⟨es', hnotes, ht⟩ := ih (x := (x.1, change x.2)) h
      refine ⟨es', ?_, ht⟩
      simpa [Turn.isMonitor, Turn.take] using hnotes

/-- The calls of a run that has ended, and how many rounds were started. -/
inductive Whole (m : Monitor) (around : Surroundings σ) : Exit → Nat → List Event → Prop
  /-- All rounds were finished. -/
  | cancelled (first : Duration) (totals : List Duration) :
      Whole m around .cancelled totals.length (m.sleepEvents around first totals)
  /-- The last round was broken off after the question about the agent. -/
  | lost (first : Duration) (totals : List Duration) (total : Duration) :
      Whole m around .parentLost (totals.length + 1)
        (m.sleepEvents around first totals ++ m.sampleEvents (totals.getLastD first) total ++
          around.houseEvents ++ around.lifeEvents .dead)

theorem Tracks.whole {exit : Exit} {es : List Event} {n : Nat}
    (h : Tracks m around (.ended exit) es n) : ∃ r, Whole m around exit r es := by
  cases h with
  | cancelled first totals => exact ⟨_, .cancelled first totals⟩
  | lost first totals total => exact ⟨_, .lost first totals total⟩

theorem callees_append (es es' : List Event) : callees (es ++ es') = callees es ++ callees es' :=
  List.filterMap_append

theorem callees_snoc (es : List Event) (e : Event) :
    callees (es ++ [e]) = callees es ++ e.callee?.toList := by
  rw [callees_append]
  cases e <;> rfl

/-- Whom the monitor calls in a round until it has heard about the agent. -/
def roundCallees (around : Surroundings σ) : List Callee :=
  .sample :: (if around.housekeeping.isSome then [.housekeeping] else []) ++
    if around.agent.isSome then [.agent] else []

theorem callees_sample (last total : Duration) :
    callees (m.sampleEvents last total) = [.sample] := by
  rw [sampleEvents]
  split <;> rfl

theorem callees_house :
    callees around.houseEvents = if around.housekeeping.isSome then [.housekeeping] else [] := by
  rw [Surroundings.houseEvents]
  split <;> rfl

theorem callees_life (life : AgentLife) :
    callees (around.lifeEvents life) = if around.agent.isSome then [.agent] else [] := by
  rw [Surroundings.lifeEvents]
  split <;> rfl

theorem callees_round (last total : Duration) (life : AgentLife) :
    callees (m.sampleEvents last total ++ around.houseEvents ++ around.lifeEvents life) =
      roundCallees around := by
  rw [callees_append, callees_append, callees_sample, callees_house, callees_life, roundCallees,
    List.singleton_append]

theorem count_sleepEvents (first : Duration) (totals : List Duration) (c : Callee) :
    (callees (m.sleepEvents around first totals)).count c =
      [Callee.sample].count c +
        totals.length * (roundCallees around ++ [Callee.roundFinished]).count c := by
  induction totals using List.reverseRecOn with
  | nil => simp [sleepEvents, roundsEvents, callees, Event.callee?]
  | append_singleton totals total ih =>
    rw [sleepEvents_concat, roundEvents, callees_append, callees_append, callees_round,
      List.count_append, ih, List.length_append, List.length_singleton, Nat.add_mul, Nat.add_assoc,
      Nat.one_mul]
    rfl

theorem Whole.counts {exit : Exit} {r : Nat} {es : List Event} (h : Whole m around exit r es) :
    (callees es).count .sample = r + 1 ∧
    (callees es).count .housekeeping = (if around.housekeeping.isSome then r else 0) ∧
    (callees es).count .agent = (if around.agent.isSome then r else 0) ∧
    (callees es).count .roundFinished = (if exit = .parentLost then r - 1 else r) := by
  cases h with
  | cancelled first totals =>
    simp only [count_sleepEvents, roundCallees]
    cases around.housekeeping.isSome <;> cases around.agent.isSome <;> simp <;> omega
  | lost first totals total =>
    rw [List.append_assoc, List.append_assoc, callees_append, ← List.append_assoc, callees_round]
    simp only [List.count_append, count_sleepEvents, roundCallees]
    cases around.housekeeping.isSome <;> cases around.agent.isSome <;> simp <;> omega

theorem count_sample_house : (callees around.houseEvents).count .sample = 0 := by
  rw [callees_house]
  split <;> rfl

theorem count_sample_life (life : AgentLife) :
    (callees (around.lifeEvents life)).count .sample = 0 := by
  rw [callees_life]
  split <;> rfl

/-- A monitor that has not ended makes its way: it starts a round with every fourth step. -/
theorem Tracks.progress {es : List Event} {n : Nat} (h : Tracks m around phase es n)
    (hphase : phase.isEnded = false) : (callees es).count .sample - 1 = (n + 2) / 4 := by
  have hsleep (first : Duration) (totals : List Duration) :
      (callees (m.sleepEvents around first totals)).count .sample = totals.length + 1 :=
    (Whole.cancelled first totals).counts.1
  cases h with
  | starting => rfl
  | asleep first totals =>
    rw [hsleep]
    omega
  | sampled first totals total =>
    rw [callees_append, callees_sample, List.count_append, hsleep, List.count_singleton_self]
    omega
  | kept first totals total =>
    rw [callees_append, callees_append, callees_sample, List.count_append, List.count_append,
      hsleep, List.count_singleton_self, count_sample_house]
    omega
  | checked first totals total =>
    rw [callees_append, callees_append, callees_append, callees_sample, List.count_append,
      List.count_append, List.count_append, hsleep, List.count_singleton_self, count_sample_house,
      count_sample_life]
    omega
  | cancelled => cases hphase
  | lost => cases hphase

/-! ## 4. Cancellation -/

/-- Whether nothing that happens takes a cancellation back. -/
structure Lasting (around : Surroundings σ) (turns : List (Turn σ)) : Prop where
  sample {s : σ} : around.cancelled s = true → around.cancelled (around.sample s).2 = true
  house {s : σ} : around.cancelled s = true → around.cancelled (around.house s) = true
  hear {s : σ} : around.cancelled s = true → around.cancelled (around.hear s).2 = true
  roundFinished {s : σ} :
    around.cancelled s = true → around.cancelled (around.roundFinished s) = true
  outside {change : σ → σ} {s : σ} : .outside change ∈ turns →
    around.cancelled s = true → around.cancelled (change s) = true

/-- How many steps a monitor takes at most after it is cancelled. -/
def Phase.left : Phase → Nat
  | .starting => 2
  | .asleep _ => 1
  | .sampled _ => 3
  | .kept _ => 2
  | .checked _ => 1
  | .ended _ => 0

theorem left_step {turns : List (Turn σ)} (hlasting : Lasting around turns)
    (hs : around.cancelled s = true) : (m.step around phase s).1.left ≤ phase.left - 1 ∧
      around.cancelled (m.step around phase s).2 = true := by
  cases phase with
  | starting => exact ⟨Nat.le_refl 1, hlasting.sample hs⟩
  | asleep last =>
    rw [step, if_pos hs]
    exact ⟨Nat.le_refl 0, hs⟩
  | sampled last =>
    rw [step_sampled]
    exact ⟨Nat.le_refl 2, hlasting.house hs⟩
  | kept last =>
    rw [step_kept]
    refine ⟨?_, hlasting.hear hs⟩
    split
    · exact Nat.zero_le 1
    · exact Nat.le_refl 1
  | checked last =>
    have hfinished := hlasting.roundFinished hs
    rw [step, if_pos hfinished]
    exact ⟨Nat.le_refl 0, hfinished⟩
  | ended exit => exact ⟨Nat.le_refl 0, hs⟩

theorem left_along {turns : List (Turn σ)} (hlasting : Lasting around turns) {x : Phase × σ}
    (hx : around.cancelled x.2 = true) :
    (m.along around turns x).1.left ≤ x.1.left - turns.countP Turn.isMonitor := by
  induction turns generalizing x with
  | nil => exact Nat.le_refl _
  | cons t turns ih =>
    have htail : Lasting around turns :=
      { hlasting with outside := fun ht => hlasting.outside (List.mem_cons_of_mem t ht) }
    rw [along, List.countP_cons]
    cases t with
    | monitor =>
      obtain ⟨hleft, hcancelled⟩ : (m.step around x.1 x.2).1.left ≤ x.1.left - 1 ∧
          around.cancelled (m.step around x.1 x.2).2 = true := left_step hlasting hx
      have hrest := ih htail (x := m.step around x.1 x.2) hcancelled
      rw [Turn.take]
      simp only [Turn.isMonitor, if_true]
      omega
    | outside change => exact ih htail (hlasting.outside List.mem_cons_self hx)

/-- A monitor that is cancelled for good ends with its third step after that at the latest. -/
theorem isEnded_of_cancelled {turns : List (Turn σ)} (hlasting : Lasting around turns)
    {x : Phase × σ} (hx : around.cancelled x.2 = true) (hturns : 3 ≤ turns.countP Turn.isMonitor) :
    (m.along around turns x).1.isEnded = true := by
  -- A round that is under way has three steps before it at most.
  have hleft := left_along (m := m) hlasting hx
  have hmost : x.1.left ≤ 3 := by cases x.1 <;> simp [Phase.left]
  have hzero : (m.along around turns x).1.left = 0 := by omega
  cases hphase : (m.along around turns x).1 with
  | ended exit => rfl
  | _ =>
    rw [hphase] at hzero
    cases hzero

/-! ## 5. Runs that differ in samples and housekeeping -/

/-- Surroundings in which the monitor is cancelled and hears about the agent alike, whatever the
samples show, the housekeeping does and the journal holds. -/
structure Surroundings.Alike (around : Surroundings σ) (around' : Surroundings τ)
    (R : σ → τ → Prop) : Prop where
  cancelled {s : σ} {s' : τ} : R s s' → around.cancelled s = around'.cancelled s'
  sample {s : σ} {s' : τ} : R s s' → R (around.sample s).2 (around'.sample s').2
  house {s : σ} {s' : τ} : R s s' → R (around.house s) (around'.house s')
  hear {s : σ} {s' : τ} : R s s' →
    (around.hear s).1 = (around'.hear s').1 ∧ R (around.hear s).2 (around'.hear s').2
  roundFinished {s : σ} {s' : τ} : R s s' → R (around.roundFinished s) (around'.roundFinished s')
  writeLeft {s : σ} {s' : τ} (e : JournalEntry) : R s s' → R (around.write e s) s'
  writeRight {s : σ} {s' : τ} (e : JournalEntry) : R s s' → R s (around'.write e s')

inductive Turn.Alike (R : σ → τ → Prop) : Turn σ → Turn τ → Prop
  | monitor : Alike R .monitor .monitor
  | outside {change : σ → σ} {change' : τ → τ} :
      (∀ s s', R s s' → R (change s) (change' s')) → Alike R (.outside change) (.outside change')

/-- Phases that differ only in what was sampled. -/
inductive Phase.Alike : Phase → Phase → Prop
  | starting : Alike .starting .starting
  | asleep (last last' : Duration) : Alike (.asleep last) (.asleep last')
  | sampled (last last' : Duration) : Alike (.sampled last) (.sampled last')
  | kept (last last' : Duration) : Alike (.kept last) (.kept last')
  | checked (last last' : Duration) : Alike (.checked last) (.checked last')
  | ended (exit : Exit) : Alike (.ended exit) (.ended exit)

theorem Phase.Alike.ended_iff {phase phase' : Phase} (h : phase.Alike phase') (exit : Exit) :
    phase = .ended exit ↔ phase' = .ended exit := by
  cases h <;> simp

variable {around' : Surroundings τ} {R : σ → τ → Prop} {phase' : Phase} {s' : τ}

theorem sampleRound_alike (halike : around.Alike around' R) (hs : R s s') (last last' : Duration) :
    (m.sampleRound around last s).1.Alike (m.sampleRound around' last' s').1 ∧
      R (m.sampleRound around last s).2 (m.sampleRound around' last' s').2 := by
  refine ⟨.sampled _ _, ?_⟩
  simp only [sampleRound]
  have hsample := halike.sample hs
  split <;> split
  · exact halike.writeLeft _ (halike.writeRight _ hsample)
  · exact halike.writeLeft _ hsample
  · exact halike.writeRight _ hsample
  · exact hsample

theorem step_alike (halike : around.Alike around' R) (hphase : phase.Alike phase') (hs : R s s') :
    (m.step around phase s).1.Alike (m.step around' phase' s').1 ∧
      R (m.step around phase s).2 (m.step around' phase' s').2 := by
  cases hphase with
  | starting => exact ⟨.asleep _ _, halike.sample hs⟩
  | asleep last last' =>
    rw [step, step, halike.cancelled hs]
    split
    · exact ⟨.ended .cancelled, hs⟩
    · exact sampleRound_alike halike hs last last'
  | sampled last last' =>
    rw [step_sampled, step_sampled]
    exact ⟨.kept last last', halike.house hs⟩
  | kept last last' =>
    obtain ⟨hlife, hstate⟩ := halike.hear hs
    rw [step_kept, step_kept, hlife]
    refine ⟨?_, hstate⟩
    split
    · exact .ended .parentLost
    · exact .checked last last'
  | checked last last' =>
    have hfinished := halike.roundFinished hs
    rw [step, step]
    refine ⟨?_, hfinished⟩
    rw [halike.cancelled hfinished]
    split
    · exact .ended .cancelled
    · exact .asleep last last'
  | ended exit => exact ⟨.ended exit, hs⟩

theorem along_alike (halike : around.Alike around' R) {turns : List (Turn σ)}
    {turns' : List (Turn τ)} (hturns : List.Forall₂ (Turn.Alike R) turns turns')
    (x : Phase × σ) (x' : Phase × τ) (hphase : x.1.Alike x'.1) (hs : R x.2 x'.2) :
    (m.along around turns x).1.Alike (m.along around' turns' x').1 ∧
      R (m.along around turns x).2 (m.along around' turns' x').2 := by
  induction hturns generalizing x x' with
  | nil => exact ⟨hphase, hs⟩
  | cons hturn _ ih =>
    cases hturn with
    | monitor =>
      obtain ⟨hphase, hs⟩ := step_alike (m := m) halike hphase hs
      exact ih _ _ hphase hs
    | outside hchange => exact ih _ _ hphase (hchange _ _ hs)

/-- The surroundings are alike as well where the calls are noted, and so are the numbers of
samples. -/
theorem Surroundings.Alike.noting (halike : around.Alike around' R) :
    around.noting.Alike around'.noting fun x x' =>
      R x.1 x'.1 ∧ (callees x.2).count .sample = (callees x'.2).count .sample where
  cancelled h := halike.cancelled h.1
  sample h := by
    refine ⟨halike.sample h.1, ?_⟩
    simp [Surroundings.noting, callees_snoc, Event.callee?, h.2]
  house h := by
    rw [house_noting, house_noting]
    refine ⟨halike.house h.1, ?_⟩
    simp only [callees_append, List.count_append, h.2, count_sample_house]
  hear h := by
    obtain ⟨hlife, hstate⟩ := halike.hear h.1
    rw [hear_noting, hear_noting]
    refine ⟨hlife, hstate, ?_⟩
    simp only [callees_append, List.count_append, h.2, count_sample_life]
  roundFinished h := by
    refine ⟨halike.roundFinished h.1, ?_⟩
    simp [Surroundings.noting, callees_snoc, Event.callee?, h.2]
  writeLeft e h := by
    refine ⟨halike.writeLeft e h.1, ?_⟩
    simpa [Surroundings.noting, callees_snoc, Event.callee?] using h.2
  writeRight e h := by
    refine ⟨halike.writeRight e h.1, ?_⟩
    simpa [Surroundings.noting, callees_snoc, Event.callee?] using h.2

theorem Turn.Alike.noting {t : Turn σ} {t' : Turn τ} (h : t.Alike R t') :
    t.noting.Alike (fun x x' =>
      R x.1 x'.1 ∧ (callees x.2).count .sample = (callees x'.2).count .sample) t'.noting := by
  cases h with
  | monitor => exact .monitor
  | outside hchange => exact .outside fun x x' hx => ⟨hchange _ _ hx.1, hx.2⟩

/-- Whether two runs end alike and after as many samples, hence after as many rounds. -/
def SameEnd (m : Monitor) (around : Surroundings σ) (turns : List (Turn σ)) (s : σ)
    (around' : Surroundings τ) (turns' : List (Turn τ)) (s' : τ) : Prop :=
  let x := m.along around.noting (turns.map Turn.noting) (.starting, s, [])
  let x' := m.along around'.noting (turns'.map Turn.noting) (.starting, s', [])
  (∀ exit, x.1 = .ended exit ↔ x'.1 = .ended exit) ∧
    (callees x.2.2).count .sample = (callees x'.2.2).count .sample

theorem sameEnd_of_alike (halike : around.Alike around' R) {turns : List (Turn σ)}
    {turns' : List (Turn τ)} (hturns : List.Forall₂ (Turn.Alike R) turns turns') (hs : R s s') :
    SameEnd m around turns s around' turns' s' := by
  have hnoting : List.Forall₂ (Turn.Alike fun x x' =>
      R x.1 x'.1 ∧ (callees x.2).count .sample = (callees x'.2).count .sample)
      (turns.map Turn.noting) (turns'.map Turn.noting) := by
    rw [List.forall₂_map_left_iff, List.forall₂_map_right_iff]
    exact hturns.imp fun _ _ h => h.noting
  obtain ⟨hphase, _, hcount⟩ := along_alike (m := m) halike.noting hnoting
    (.starting, s, []) (.starting, s', []) .starting ⟨hs, rfl⟩
  exact ⟨hphase.ended_iff, hcount⟩

/-- Surroundings with a bounded task as their housekeeping, whose runs may succeed, fail or
panic. -/
def Surroundings.keeping (around : Surroundings σ) (task : String)
    (run : Panic.Slot → σ → Attempt × Panic.Slot × σ) :
    Surroundings (σ × Housekeeping.Bounded × Panic.Slot) where
  cancelled x := around.cancelled x.1
  sample x := ((around.sample x.1).1, (around.sample x.1).2, x.2)
  housekeeping := some fun x =>
    let (_, bounded, entries, slot, s) := x.2.1.tick task run x.2.2 x.1
    (entries.foldl (fun s e => around.write e s) s, bounded, slot)
  agent := around.agent.map fun ask x => ((ask x.1).1, (ask x.1).2, x.2)
  roundFinished x := (around.roundFinished x.1, x.2)
  write e x := (around.write e x.1, x.2)

theorem hear_keeping {task : String} {run : Panic.Slot → σ → Attempt × Panic.Slot × σ}
    (x : σ × Housekeeping.Bounded × Panic.Slot) :
    (around.keeping task run).hear x = ((around.hear x.1).1, (around.hear x.1).2, x.2) := by
  rw [Surroundings.hear, Surroundings.hear, Surroundings.keeping]
  cases around.agent <;> simp

section Keeping

variable {task task' : String} {run : Panic.Slot → σ → Attempt × Panic.Slot × σ}
  {run' : Panic.Slot → τ → Attempt × Panic.Slot × τ}

theorem house_keeping (hwrite : ∀ e s, R s s' → R (around.write e s) s')
    (hrun : ∀ slot s, R s s' → R (run slot s).2.2 s')
    {x : σ × Housekeeping.Bounded × Panic.Slot} (hx : R x.1 s') :
    R ((around.keeping task run).house x).1 s' := by
  have hwrites (entries : Journal) {s : σ} (hs : R s s') :
      R (entries.foldl (fun s e => around.write e s) s) s' := by
    induction entries generalizing s with
    | nil => exact hs
    | cons e entries ih => exact ih (hwrite e s hs)
  have htick : R (x.2.1.tick task run x.2.2 x.1).2.2.2.2 s' := by
    rw [Housekeeping.Bounded.tick]
    split
    · exact hx
    · exact hrun x.2.2 x.1 hx
  exact hwrites _ htick

/-- The outcomes of the housekeeping do not matter, and neither does whether it has been switched
off, as long as what is run touches nothing that matters. -/
theorem Surroundings.Alike.keeping (halike : around.Alike around' R)
    (hrun : ∀ slot s s', R s s' → R (run slot s).2.2 s')
    (hrun' : ∀ slot s s', R s s' → R s (run' slot s').2.2) :
    (around.keeping task run).Alike (around'.keeping task' run') fun x x' => R x.1 x'.1 where
  cancelled h := halike.cancelled h
  sample h := halike.sample h
  house {x x'} h := by
    have hleft : R ((around.keeping task run).house x).1 x'.1 :=
      house_keeping (fun e _ => halike.writeLeft e) (fun slot s => hrun slot s x'.1) h
    exact house_keeping (R := flip R) (fun e _ => halike.writeRight e)
      (fun slot s' => hrun' slot _ s') hleft
  hear h := by
    rw [hear_keeping, hear_keeping]
    exact halike.hear h
  roundFinished h := halike.roundFinished h
  writeLeft e h := halike.writeLeft e h
  writeRight e h := halike.writeRight e h

def Turn.keeping : Turn σ → Turn (σ × Housekeeping.Bounded × Panic.Slot)
  | .monitor => .monitor
  | .outside change => .outside fun x => (change x.1, x.2)

theorem Turn.Alike.keeping {t : Turn σ} {t' : Turn τ} (h : t.Alike R t') :
    t.keeping.Alike (fun x x' => R x.1 x'.1) t'.keeping := by
  cases h with
  | monitor => exact .monitor
  | outside hchange => exact .outside fun x x' hx => hchange _ _ hx

end Keeping

/-! ## 6. Runs from the start -/

/-- Whatever the samples show, the housekeeping does and the agent is said to be, and whenever the
monitor is cancelled, it calls in each round what belongs to it, in order, and warns of exactly the
long pauses. It ends with the first step that finds it cancelled or the agent dead, and then it
calls nothing any more. It comes to such a step if it is cancelled for good. Runs in which it is
cancelled alike and hears alike about the agent end alike after as many rounds, whatever the samples
show and however the runs of the housekeeping end. -/
theorem course_of_run (m : Monitor) (around : Surroundings σ) (turns : List (Turn σ)) (s : σ) :
    let x := m.along around turns (.starting, s)
    (∃ es, m.along around.noting (turns.map Turn.noting) (.starting, s, []) = (x.1, x.2, es) ∧
      Tracks m around x.1 es (turns.countP Turn.isMonitor) ∧
      (∀ exit, x.1 = .ended exit → (∃ r, Whole m around exit r es ∧
          (callees es).count .sample = r + 1 ∧
          (callees es).count .housekeeping = (if around.housekeeping.isSome then r else 0) ∧
          (callees es).count .agent = (if around.agent.isSome then r else 0) ∧
          (callees es).count .roundFinished = (if exit = .parentLost then r - 1 else r)) ∧
        ∀ more, ∃ s', m.along around more x = (.ended exit, s') ∧
          m.along around.noting (more.map Turn.noting) (x.1, x.2, es) = (.ended exit, s', es)) ∧
      (x.1.isEnded = false →
        (callees es).count .sample - 1 = (turns.countP Turn.isMonitor + 2) / 4)) ∧
    (∀ exit, x.1 = .ended exit ↔ ∃ before after, turns = before ++ .monitor :: after ∧
      let y := m.along around before (.starting, s)
      Sees around exit y.1 y.2 ∧
      ∀ earlier later exit', before = earlier ++ .monitor :: later →
        let z := m.along around earlier (.starting, s)
        ¬Sees around exit' z.1 z.2) ∧
    (∀ more, Lasting around more → around.cancelled x.2 = true →
      3 ≤ more.countP Turn.isMonitor → (m.along around more x).1.isEnded = true) ∧
    ∀ (τ : Type) (around' : Surroundings τ) (R : σ → τ → Prop) (turns' : List (Turn τ)) (s' : τ),
      around.Alike around' R → List.Forall₂ (Turn.Alike R) turns turns' → R s s' →
      SameEnd m around turns s around' turns' s' ∧
      ∀ task task' run run' bounded bounded' slot slot',
        (∀ slot s s', R s s' → R (run slot s).2.2 s' ∧ R s (run' slot s').2.2) →
        SameEnd m (around.keeping task run) (turns.map Turn.keeping) (s, bounded, slot)
          (around'.keeping task' run') (turns'.map Turn.keeping) (s', bounded', slot') := by
  intro x
  have hstart : Tracks m around .starting [] 0 := .starting
  obtain ⟨es, hnotes, htracks⟩ := tracks_along (x := (.starting, s)) hstart turns
  rw [Nat.zero_add] at htracks
  refine ⟨⟨es, hnotes, htracks, ?_, htracks.progress⟩, fun exit => ended_first_iff rfl, ?_, ?_⟩
  · intro exit hexit
    obtain ⟨r, hwhole⟩ := (hexit ▸ htracks).whole
    refine ⟨⟨r, hwhole, hwhole.counts⟩, fun more => ?_⟩
    have hx : x = (.ended exit, x.2) := Prod.ext hexit rfl
    rw [hx]
    exact along_ended exit more x.2 es
  · intro more hlasting hcancelled hmore
    exact isEnded_of_cancelled hlasting hcancelled hmore
  · intro τ around' R turns' s' halike hturns hs
    refine ⟨sameEnd_of_alike halike hturns hs, ?_⟩
    intro task task' run run' bounded bounded' slot slot' hruns
    have hkeeping : List.Forall₂ (Turn.Alike fun x x' => R x.1 x'.1) (turns.map Turn.keeping)
        (turns'.map Turn.keeping) := by
      rw [List.forall₂_map_left_iff, List.forall₂_map_right_iff]
      exact hturns.imp fun _ _ h => h.keeping
    exact sameEnd_of_alike (halike.keeping (fun slot s s' h => (hruns slot s s' h).1)
      fun slot s s' h => (hruns slot s s' h).2) hkeeping hs

/-- The agent is dead in the third round, and the housekeeping has been switched off by then. -/
example :
    let around : Surroundings Nat :=
      ⟨fun _ => false, fun s => (.zero, s), none,
        some fun s => (if s = 2 then .dead else .alive, s + 1), id, fun _ s => s⟩
    let run : Panic.Slot → Nat → Attempt × Panic.Slot × Nat := fun slot s =>
      (.panicked (.text "disk"), slot, s)
    let x := Monitor.along ⟨.ofSecs 1, .ofSecs 3⟩ (around.keeping "task" run).noting
      (List.replicate 20 .monitor) (.starting, (0, .new 1, none), [])
    x.1 = .ended .parentLost ∧ x.2.1.2.1.disabled = true ∧
      callees x.2.2 = [.sample] ++ [.sample, .housekeeping, .agent, .roundFinished] ++
        [.sample, .housekeeping, .agent, .roundFinished] ++ [.sample, .housekeeping, .agent] := by
  decide +kernel

end Monitor

end SupervisedWorker
