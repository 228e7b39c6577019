import SupervisedWorker.Housekeeping.Bounded
import SupervisedWorker.Proofs.Number

/-!
# How long housekeeping is given a chance

A bounded task is ticked again and again. Its counter follows the run of failed calls up to the
limit, and the call that completes the first run of this length is the last one.

Results:
1. `failedRun_concat`: the run of failures after one more call.
2. `tick_skips`, `tick_calls`: what one tick does.
3. `course_noting`: a course with a note of every call is the course.
4. `follows_course`: the counter follows the calls.
5. `disabled_by_first_run`: all of it about a number of ticks.
-/

namespace SupervisedWorker

namespace Housekeeping

/-! ## 1. Runs of failures -/

/-- Whether a call has failed. -/
def isFailure : Attempt → Bool
  | .succeeded => false
  | .failed _ | .panicked _ => true

/-- How many calls have failed since the last one that did not. -/
def failedRun (calls : List Attempt) : Nat := (calls.reverse.takeWhile isFailure).length

theorem failedRun_concat (calls : List Attempt) (a : Attempt) :
    failedRun (calls ++ [a]) = if isFailure a then failedRun calls + 1 else 0 := by
  rw [failedRun, List.reverse_append, List.reverse_singleton, List.singleton_append,
    List.takeWhile_cons]
  split <;> rfl

/-- What a tick answers whose call ended in a way, after others. -/
def answer (limit : Nat) (before : List Attempt) (a : Attempt) : Tick :=
  if isFailure a then
    if failedRun (before ++ [a]) < limit then .failed (.ofNat (failedRun (before ++ [a])))
    else .disabled
  else .ran

/-- The answers to calls, after others. -/
def answers (limit : Nat) (before : List Attempt) : List Attempt → List Tick
  | [] => []
  | a :: calls => answer limit before a :: answers limit (before ++ [a]) calls

theorem answers_concat (limit : Nat) (before calls : List Attempt) (a : Attempt) :
    answers limit before (calls ++ [a]) =
      answers limit before calls ++ [answer limit (before ++ calls) a] := by
  induction calls generalizing before with
  | nil => simp [answers]
  | cons first calls ih =>
    rw [List.cons_append, answers, ih, answers, List.append_assoc]
    rfl

theorem length_answers (limit : Nat) (before calls : List Attempt) :
    (answers limit before calls).length = calls.length := by
  induction calls generalizing before with
  | nil => rfl
  | cons a calls ih => exact congrArg (· + 1) (ih _)

theorem getElem?_answers (limit : Nat) (before calls : List Attempt) (k : Nat) :
    (answers limit before calls)[k]? = calls[k]?.map (answer limit (before ++ calls.take k)) := by
  induction calls generalizing before k with
  | nil => rfl
  | cons a calls ih =>
    cases k with
    | zero => simp [answers]
    | succ k => simp [answers, ih]

theorem answer_eq_disabled {limit : Nat} {before : List Attempt} {a : Attempt} :
    answer limit before a = .disabled ↔
      isFailure a = true ∧ limit ≤ failedRun (before ++ [a]) := by
  unfold answer
  split
  · split <;> simp_all
  · simp_all

/-! ## 2. One tick -/

namespace Bounded

variable {σ : Type} {b : Bounded} {task : String}
  {run : Panic.Slot → σ → Attempt × Panic.Slot × σ} {slot : Panic.Slot} {s : σ}

theorem tick_skips (h : b.disabled = true) : b.tick task run slot s = (.skipped, b, [], slot, s) :=
  if_pos h

/-- The state after a call that ended in a way. -/
def count (b : Bounded) (a : Attempt) : Bounded :=
  if isFailure a then
    { b with failures := b.failures + 1, disabled := b.disabled || b.failures + 1 ≥ b.maxFailures }
  else { b with failures := 0 }

/-- What a tick answers whose call ended in a way. -/
def reply (b : Bounded) (a : Attempt) : Tick :=
  if isFailure a then if b.failures + 1 ≥ b.maxFailures then .disabled else .failed (b.failures + 1)
  else .ran

/-- A tick calls the task that is not switched off, and counts. -/
theorem tick_calls (h : b.disabled = false) (task : String)
    (run : Panic.Slot → σ → Attempt × Panic.Slot × σ) (slot : Panic.Slot) (s : σ) :
    (b.tick task run slot s).1 = b.reply (run slot s).1 ∧
    (b.tick task run slot s).2.1 = b.count (run slot s).1 ∧
    (b.tick task run slot s).2.2.2.2 = (run slot s).2.2 := by
  rw [tick, if_neg (Bool.eq_false_iff.mp h)]
  rcases run slot s with ⟨_ | cause | payload, slot', s'⟩
  · exact ⟨rfl, rfl, rfl⟩
  · exact ⟨rfl, rfl, rfl⟩
  · exact ⟨rfl, rfl, rfl⟩

end Bounded

/-! ## 3. Many ticks -/

variable {σ : Type}

/-- What has been done by some ticks, and what they leave. -/
structure Course (σ : Type) where
  ticks : List Tick
  bounded : Bounded
  slot : Panic.Slot
  state : σ

/-- One tick more. -/
def Course.tick (task : String) (run : Panic.Slot → σ → Attempt × Panic.Slot × σ)
    (c : Course σ) : Course σ :=
  let (tick, bounded, _, slot, state) := c.bounded.tick task run c.slot c.state
  ⟨c.ticks ++ [tick], bounded, slot, state⟩

/-- A number of ticks. -/
def course (task : String) (run : Panic.Slot → σ → Attempt × Panic.Slot × σ) (b : Bounded)
    (slot : Panic.Slot) (s : σ) : Nat → Course σ
  | 0 => ⟨[], b, slot, s⟩
  | n + 1 => (course task run b slot s n).tick task run

/-- The same task, where the end of every call is noted. -/
def noting (run : Panic.Slot → σ → Attempt × Panic.Slot × σ) (slot : Panic.Slot)
    (x : σ × List Attempt) : Attempt × Panic.Slot × (σ × List Attempt) :=
  let (attempt, slot, s) := run slot x.1
  (attempt, slot, (s, x.2 ++ [attempt]))

/-- A course without the notes. -/
def Course.plain (c : Course (σ × List Attempt)) : Course σ :=
  ⟨c.ticks, c.bounded, c.slot, c.state.1⟩

variable (task : String) (run : Panic.Slot → σ → Attempt × Panic.Slot × σ)

theorem tick_noting (c : Course (σ × List Attempt)) :
    (c.tick task (noting run)).plain = c.plain.tick task run := by
  cases h : c.bounded.disabled with
  | true => simp only [Course.tick, Course.plain, Bounded.tick_skips h]
  | false =>
    simp only [Course.tick, Course.plain, Bounded.tick, h, noting]
    rcases run c.slot c.state.1 with ⟨_ | cause | payload, slot, s⟩ <;> rfl

theorem course_noting (b : Bounded) (slot : Panic.Slot) (s : σ) (n : Nat) :
    (course task (noting run) b slot (s, []) n).plain = course task run b slot s n := by
  induction n with
  | zero => rfl
  | succ n ih => rw [course, tick_noting, ih, course]

/-! ## 4. The counter and the calls -/

/-- What holds of a bounded task whose calls have ended in some ways. -/
structure Bounded.Counts (limit : Nat) (b : Bounded) (calls : List Attempt) : Prop where
  maxFailures : b.maxFailures.toNat = limit
  failures : b.failures.toNat = failedRun calls
  disabled : b.disabled = true ↔ failedRun calls = limit
  within : failedRun calls ≤ limit

theorem Bounded.Counts.below {limit : Nat} {b : Bounded} {calls : List Attempt}
    (h : b.Counts limit calls) (hd : b.disabled = false) : failedRun calls < limit :=
  Nat.lt_of_le_of_ne h.within (mt h.disabled.mpr (Bool.eq_false_iff.mp hd))

/-- The counter follows one more call, and so does the answer. -/
theorem Bounded.Counts.count {limit : Nat} {b : Bounded} {calls : List Attempt}
    (h : b.Counts limit calls) (hd : b.disabled = false) (a : Attempt) :
    (b.count a).Counts limit (calls ++ [a]) ∧ b.reply a = answer limit calls a := by
  have hbelow := h.below hd
  have hcounter : b.failures.toNat < b.maxFailures.toNat := by rwa [h.failures, h.maxFailures]
  have hsucc : (b.failures + 1).toNat = failedRun calls + 1 := by
    rw [Word.toNat_succ hcounter, h.failures]
  have hreached : b.failures + 1 ≥ b.maxFailures ↔ limit ≤ failedRun calls + 1 := by
    rw [ge_iff_le, UInt32.le_iff_toNat_le, hsucc, h.maxFailures]
  cases ha : isFailure a with
  | false =>
    have hrun : failedRun (calls ++ [a]) = 0 := by rw [failedRun_concat, ha]; rfl
    have hzero : (0 : Nat) < limit := Nat.zero_lt_of_lt hbelow
    simp only [Bounded.count, Bounded.reply, answer, ha, Bool.false_eq_true, if_false]
    refine ⟨⟨h.maxFailures, hrun.symm, ?_, ?_⟩, trivial⟩
    · simp only [hd, hrun, Bool.false_eq_true, false_iff]
      omega
    · omega
  | true =>
    have hrun : failedRun (calls ++ [a]) = failedRun calls + 1 := by rw [failedRun_concat, ha]; rfl
    simp only [Bounded.count, Bounded.reply, answer, ha, if_true]
    refine ⟨⟨h.maxFailures, hsucc.trans hrun.symm, ?_, ?_⟩, ?_⟩
    · simp only [hd, Bool.false_or, decide_eq_true_eq, hreached, hrun]
      omega
    · omega
    · rw [hrun, ← hsucc, UInt32.ofNat_toNat, hsucc]
      by_cases hlast : limit ≤ failedRun calls + 1
      · rw [if_pos (hreached.mpr hlast), if_neg (Nat.not_lt.mpr hlast)]
      · rw [if_neg (mt hreached.mp hlast), if_pos (Nat.lt_of_not_le hlast)]

/-- What holds of a course of some ticks: the calls are counted, there was one with every tick until
a run of failures reached the limit, and the ticks have answered accordingly. -/
structure Follows (limit n : Nat) (c : Course (σ × List Attempt)) : Prop where
  counts : c.bounded.Counts limit c.state.2
  first : ∀ k < c.state.2.length, failedRun (c.state.2.take k) < limit
  called : c.state.2.length ≤ n
  everyTime : c.bounded.disabled = false → c.state.2.length = n
  ticks : c.ticks = answers limit [] c.state.2 ++ List.replicate (n - c.state.2.length) .skipped

theorem Follows.tick {limit n : Nat} {c : Course (σ × List Attempt)} (h : Follows limit n c) :
    Follows limit (n + 1) (c.tick task (noting run)) := by
  have hcalled := h.called
  cases hd : c.bounded.disabled with
  | true =>
    simp only [Course.tick, Bounded.tick_skips hd]
    refine ⟨h.counts, h.first, Nat.le_succ_of_le hcalled, fun hon => ?_, ?_⟩
    · exact absurd (hd.symm.trans hon) (by decide)
    · simp only [h.ticks, List.append_assoc]
      rw [Nat.succ_sub hcalled, List.replicate_succ']
  | false =>
    obtain ⟨a, htick, hbounded, hcalls⟩ : ∃ a, (c.tick task (noting run)).ticks =
          c.ticks ++ [c.bounded.reply a] ∧
        (c.tick task (noting run)).bounded = c.bounded.count a ∧
        (c.tick task (noting run)).state.2 = c.state.2 ++ [a] := by
      obtain ⟨hreply, hcount, hstate⟩ := Bounded.tick_calls hd task (noting run) c.slot c.state
      exact ⟨_, congrArg (c.ticks ++ [·]) hreply, hcount, congrArg Prod.snd hstate⟩
    obtain ⟨hcounts, hreply⟩ := h.counts.count hd a
    have hlength : c.state.2.length = n := h.everyTime hd
    have hlonger : (c.tick task (noting run)).state.2.length = n + 1 := by
      rw [hcalls, List.length_append, hlength, List.length_singleton]
    refine ⟨hbounded ▸ hcalls ▸ hcounts, ?_, Nat.le_of_eq hlonger, fun _ => hlonger, ?_⟩
    · intro k hk
      rw [hlonger] at hk
      rw [hcalls, List.take_append_of_le_length (hlength ▸ Nat.lt_succ_iff.mp hk)]
      rcases Nat.lt_succ_iff_lt_or_eq.mp hk with hk | rfl
      · exact h.first k (hlength ▸ hk)
      · rw [← hlength, List.take_length]
        exact h.counts.below hd
    · rw [htick, h.ticks, hlonger, hlength, hcalls, answers_concat, hreply]
      simp

/-- The task is switched off by the call that completes the first run, and by no other. -/
theorem Follows.disabled_iff {limit n : Nat} {c : Course (σ × List Attempt)}
    (h : Follows limit n c) (k : Nat) : c.ticks[k]? = some .disabled ↔
      k + 1 = c.state.2.length ∧ failedRun c.state.2 = limit := by
  rw [h.ticks]
  rcases Nat.lt_or_ge k c.state.2.length with hk | hk
  · have htake : c.state.2.take k ++ [c.state.2[k]] = c.state.2.take (k + 1) :=
      List.take_append_getElem hk
    have hbelow := h.first k hk
    rw [List.getElem?_append_left (by rwa [length_answers]), getElem?_answers, List.nil_append,
      List.getElem?_eq_getElem hk, Option.map_some, Option.some_inj, answer_eq_disabled, htake]
    constructor
    · rintro ⟨_, hreached⟩
      have hlast : k + 1 = c.state.2.length :=
        Nat.le_antisymm hk (Nat.le_of_not_lt fun hless => Nat.not_lt.mpr hreached (h.first _ hless))
      rw [hlast, List.take_length] at hreached
      exact ⟨hlast, Nat.le_antisymm h.counts.within hreached⟩
    · rintro ⟨hlast, hreached⟩
      rw [hlast, List.take_length] at htake ⊢
      refine ⟨?_, Nat.le_of_eq hreached.symm⟩
      -- A call that succeeds ends every run, and the limit is not zero.
      refine Decidable.byContradiction fun hsuccess => ?_
      rw [← htake, failedRun_concat, if_neg hsuccess] at hreached
      exact absurd (hreached ▸ hbelow) (Nat.not_lt_zero _)
  · rw [List.getElem?_append_right (by rwa [length_answers]), List.getElem?_replicate]
    refine iff_of_false (by split <;> simp) ?_
    omega

theorem follows_course (limit : UInt32) (slot : Panic.Slot) (s : σ) (n : Nat) :
    Follows (max limit.toNat 1) n (course task (noting run) (.new limit) slot (s, []) n) := by
  induction n with
  | zero =>
    have hlimit : 0 < max limit.toNat 1 := Nat.lt_of_lt_of_le Nat.one_pos (Nat.le_max_right _ _)
    refine ⟨⟨Word.toNat_max limit 1, rfl, ?_, Nat.zero_le _⟩, nofun, Nat.le_refl 0, fun _ => rfl, rfl⟩
    exact iff_of_false Bool.false_ne_true (Nat.ne_of_lt hlimit)
  | succ n ih => exact ih.tick task run

/-- A number of ticks of a task that may fail `limit` times in a row, and at least once, whatever
the calls of the task end in. The counter never exceeds the limit, is at the limit exactly when the
task is switched off, and is the present run of failures until then, so it never wraps. The task is
called with every tick until a run of failures reaches the limit for the first time, and never
again. A call that succeeds is answered by `ran`, one that fails by the length of the run or, if
that has reached the limit, by `disabled`, and a tick without a call by `skipped`. -/
theorem disabled_by_first_run (task : String)
    (run : Panic.Slot → σ → Attempt × Panic.Slot × σ) (limit : UInt32) (slot : Panic.Slot) (s : σ)
    (n : Nat) :
    let most := max limit.toNat 1
    let c := course task (noting run) (.new limit) slot (s, []) n
    let calls := c.state.2
    c.plain = course task run (.new limit) slot s n ∧
    (c.bounded.failures.toNat ≤ most ∧
      (c.bounded.failures.toNat = most ↔ c.bounded.disabled = true) ∧
      (c.bounded.disabled = false → c.bounded.failures.toNat = failedRun calls ∧
        (c.bounded.failures + 1).toNat = c.bounded.failures.toNat + 1)) ∧
    (calls.length ≤ n ∧ (∀ k < calls.length, failedRun (calls.take k) < most) ∧
      (calls.length < n → failedRun calls = most)) ∧
    c.ticks = answers most [] calls ++ List.replicate (n - calls.length) .skipped ∧
    ∀ k, c.ticks[k]? = some .disabled ↔ k + 1 = calls.length ∧ failedRun calls = most := by
  intro most c calls
  have h := follows_course task run limit slot s n
  refine ⟨course_noting task run _ slot s n, ⟨?_, ?_, ?_⟩, ⟨h.called, h.first, ?_⟩, h.ticks,
    h.disabled_iff⟩
  · rw [h.counts.failures]
    exact h.counts.within
  · rw [h.counts.failures, h.counts.disabled]
  · intro hon
    have hcounter : c.bounded.failures.toNat < c.bounded.maxFailures.toNat := by
      rw [h.counts.failures, h.counts.maxFailures]
      exact h.counts.below hon
    exact ⟨h.counts.failures, Word.toNat_succ hcounter⟩
  · intro hless
    rw [← h.counts.disabled, ← Bool.not_eq_false]
    exact fun hon => Nat.ne_of_lt hless (h.everyTime hon)

end Housekeeping

end SupervisedWorker
