import SupervisedWorker.Proofs.Number
import SupervisedWorker.StopWatch

/-!
# What ends a watch, and what becomes of its marker

A watch goes from round to round until a look finds its marker or an interrupt is noticed. Whether
the marker can be removed is asked only after that, and changes nothing about how the watch ends.
A watch is followed here with a note of its looks, removals, entries and pauses.

Results:
1. `round_rounded`: how one round goes.
2. `wait_iff`, `wait_ended`: a watch ends by what comes first, and for good.
3. `consume_noting`: the marker is removed in attempts, with a pause between two of them; the last
   one leaves the marker gone, or no other is allowed.
4. `poll_noting`, `wait_noting`: what is done about one look, and in a whole watch.
5. `watch_obeys_marker`: all of it.
-/

namespace SupervisedWorker

namespace StopWatch

variable {σ : Type} {w : StopWatch} {around : Surroundings σ} {s : σ}

/-! ## 1. What ends a watch -/

/-- The surroundings after a round that does not end the watch. -/
def afterRound (w : StopWatch) (around : Surroundings σ) (s : σ) : σ :=
  (around.doze w.pollInterval (w.poll around s).2).2

/-- The surroundings at the start of a round, if nothing ends the watch before. -/
def before (w : StopWatch) (around : Surroundings σ) : (round : Nat) → σ → σ
  | 0, s => s
  | n + 1, s => w.before around n (w.afterRound around s)

/-- The look of a round finds the marker. -/
def Finds (w : StopWatch) (around : Surroundings σ) (s : σ) (n : Nat) : Prop :=
  (around.files.probe w.marker (w.before around n s)).1 = .ok ()

/-- The interrupt is seen at the start of a round. -/
def Halted (w : StopWatch) (around : Surroundings σ) (s : σ) (n : Nat) : Prop :=
  around.interrupted (w.before around n s) = true

/-- The interrupt comes during the sleep of a round. -/
def Woken (w : StopWatch) (around : Surroundings σ) (s : σ) (n : Nat) : Prop :=
  (around.doze w.pollInterval (w.poll around (w.before around n s)).2).1 = true

/-- The interrupt is noticed before the look of a round. -/
def Noticed (w : StopWatch) (around : Surroundings σ) (s : σ) (n : Nat) : Prop :=
  (∃ m ≤ n, w.Halted around s m) ∨ ∃ m < n, w.Woken around s m

/-- A look that is made before the interrupt is noticed finds the marker. -/
def Commanded (w : StopWatch) (around : Surroundings σ) (rounds : Nat) (s : σ) : Prop :=
  ∃ n < rounds, w.Finds around s n ∧ ¬w.Noticed around s n

/-- The interrupt is noticed within a number of rounds. -/
def Called (w : StopWatch) (around : Surroundings σ) (rounds : Nat) (s : σ) : Prop :=
  ∃ n < rounds, w.Halted around s n ∨ w.Woken around s n

theorem noticed_zero : w.Noticed around s 0 ↔ w.Halted around s 0 := by
  simp [Noticed]

theorem noticed_succ (n : Nat) : w.Noticed around s (n + 1) ↔
    w.Halted around s 0 ∨ w.Woken around s 0 ∨ w.Noticed around (w.afterRound around s) n := by
  have hhalted : (∃ m ≤ n + 1, w.Halted around s m) ↔
      w.Halted around s 0 ∨ ∃ m ≤ n, w.Halted around (w.afterRound around s) m := by
    simp only [← Nat.lt_succ_iff, Nat.exists_lt_succ_left (n := n + 1)]
    rfl
  rw [Noticed, hhalted, Nat.exists_lt_succ_left, or_assoc, or_left_comm (b := w.Woken around s 0)]
  rfl

theorem called_succ (rounds : Nat) : w.Called around (rounds + 1) s ↔
    (w.Halted around s 0 ∨ w.Woken around s 0) ∨
      w.Called around rounds (w.afterRound around s) := by
  rw [Called, Nat.exists_lt_succ_left]
  rfl

theorem commanded_succ (rounds : Nat) : w.Commanded around (rounds + 1) s ↔
    ¬w.Halted around s 0 ∧ (w.Finds around s 0 ∨
      ¬w.Woken around s 0 ∧ w.Commanded around rounds (w.afterRound around s)) := by
  rw [Commanded, Nat.exists_lt_succ_left, noticed_zero]
  simp only [noticed_succ, not_or]
  constructor
  · rintro (⟨hfinds, hhalted⟩ | ⟨n, hn, hfinds, hhalted, hwoken, hnoticed⟩)
    · exact ⟨hhalted, .inl hfinds⟩
    · exact ⟨hhalted, .inr ⟨hwoken, n, hn, hfinds, hnoticed⟩⟩
  · rintro ⟨hhalted, hfinds | ⟨hwoken, n, hn, hfinds, hnoticed⟩⟩
    · exact .inl ⟨hfinds, hhalted⟩
    · exact .inr ⟨n, hn, hfinds, hhalted, hwoken, hnoticed⟩

theorem poll_eq : w.poll around s =
    match (around.files.probe w.marker s).1 with
    | .ok () => (true, w.consume around w.attempts 1 (around.files.probe w.marker s).2)
    | .error e => (false, if e = .missing then (around.files.probe w.marker s).2
        else around.write (probeEntry e) (around.files.probe w.marker s).2) := by
  rcases hprobe : around.files.probe w.marker s with ⟨_ | _, s'⟩ <;>
    simp [poll, seesMarker, hprobe]

theorem poll_fst (w : StopWatch) (around : Surroundings σ) (s : σ) :
    (w.poll around s).1 = true ↔ w.Finds around s 0 := by
  rw [poll_eq, Finds, before]
  split <;> simp_all

/-- How a round goes. -/
inductive Rounded (w : StopWatch) (around : Surroundings σ) (s : σ) : Option StopTrigger × σ → Prop
  | halted : w.Halted around s 0 → Rounded w around s (some .interrupted, s)
  | found : ¬w.Halted around s 0 → w.Finds around s 0 →
      Rounded w around s (some .stopCommand, (w.poll around s).2)
  | woken : ¬w.Halted around s 0 → ¬w.Finds around s 0 → w.Woken around s 0 →
      Rounded w around s (some .interrupted, w.afterRound around s)
  | passed : ¬w.Halted around s 0 → ¬w.Finds around s 0 → ¬w.Woken around s 0 →
      Rounded w around s (none, w.afterRound around s)

theorem round_rounded : Rounded w around s (w.round around s) := by
  rw [round]
  split
  · rename_i hhalted
    exact .halted hhalted
  · rename_i hhalted
    rcases hpoll : w.poll around s with ⟨_ | _, s'⟩
    · have hfinds : ¬w.Finds around s 0 := by simp [← w.poll_fst around, hpoll]
      have hs' : s' = (w.poll around s).2 := by rw [hpoll]
      rcases hdoze : around.doze w.pollInterval s' with ⟨_ | _, s''⟩
      · have hwoken : ¬w.Woken around s 0 := by simp [Woken, before, ← hs', hdoze]
        have hs'' : s'' = w.afterRound around s := by rw [afterRound, ← hs', hdoze]
        simp only [hdoze]
        exact hs'' ▸ .passed hhalted hfinds hwoken
      · have hwoken : w.Woken around s 0 := by simp [Woken, before, ← hs', hdoze]
        have hs'' : s'' = w.afterRound around s := by rw [afterRound, ← hs', hdoze]
        simp only [hdoze]
        exact hs'' ▸ .woken hhalted hfinds hwoken
    · have hs' : s' = (w.poll around s).2 := by rw [hpoll]
      exact hs' ▸ .found hhalted ((w.poll_fst around s).mp (by rw [hpoll]))

/-- What a watch ends with, if it does. -/
theorem wait_iff (w : StopWatch) (around : Surroundings σ) (rounds : Nat) (s : σ) :
    ((w.wait around rounds s).1 = some .stopCommand ↔ w.Commanded around rounds s) ∧
    ((w.wait around rounds s).1 = some .interrupted ↔
      w.Called around rounds s ∧ ¬w.Commanded around rounds s) ∧
    ((w.wait around rounds s).1 = none ↔
      ¬w.Called around rounds s ∧ ¬w.Commanded around rounds s) := by
  induction rounds generalizing s with
  | zero => simp [wait, Commanded, Called]
  | succ rounds ih =>
    rw [wait, commanded_succ, called_succ]
    generalize hround : w.round around s = r
    cases hround ▸ round_rounded with
    | halted hhalted => simp [hhalted]
    | found hhalted hfinds => simp [hhalted, hfinds]
    | woken hhalted hfinds hwoken => simp [hfinds, hwoken]
    | passed hhalted hfinds hwoken => simpa [hhalted, hfinds, hwoken] using ih _

/-- A watch that has ended has ended for good. -/
theorem wait_ended (w : StopWatch) (around : Surroundings σ) (rounds more : Nat) (s : σ)
    (h : (w.wait around rounds s).1 ≠ none) :
    w.wait around (rounds + more) s = w.wait around rounds s := by
  induction rounds generalizing s with
  | zero => exact absurd rfl h
  | succ rounds ih =>
    rw [Nat.succ_add, wait, wait]
    rw [wait] at h
    rcases hround : w.round around s with ⟨_ | trigger, s'⟩
    · rw [hround] at h
      exact ih s' h
    · rfl

/-! ## 2. Notes -/

/-- What a watch does, as far as it matters to its marker. -/
inductive Event
  | looked (path : String) (answer : Except FileError Unit)
  | removed (path : String) (answer : Except FileError Unit)
  | wrote (e : JournalEntry)
  | slept (d : Duration)
  | dozed (d : Duration) (woken : Bool)

/-- A call, with a note that depends on its answer. -/
def noted {α : Type} (note : α → Event) (call : σ → α × σ) (x : σ × List Event) :
    α × σ × List Event :=
  ((call x.1).1, (call x.1).2, x.2 ++ [note (call x.1).1])

/-- The same surroundings, where the looks, the removals, the entries and the pauses are noted. -/
def Surroundings.noting (around : Surroundings σ) : Surroundings (σ × List Event) where
  files :=
    { around.files.within Prod.fst fun x s => (s, x.2) with
      probe := fun path => noted (.looked path) (around.files.probe path)
      remove := fun path => noted (.removed path) (around.files.remove path) }
  write e x := (around.write e x.1, x.2 ++ [.wrote e])
  sleep d x := (around.sleep d x.1, x.2 ++ [.slept d])
  interrupted x := around.interrupted x.1
  doze d := noted (.dozed d) (around.doze d)

/-- After this answer to its removal the marker is gone. -/
def isGone : Except FileError Unit → Bool
  | .ok () => true
  | .error e => e = .missing

/-- What one attempt at the removal does. -/
def attemptEvents (w : StopWatch) (attempt : Nat) (answer : Except FileError Unit) : List Event :=
  .removed w.marker answer ::
    match answer with
    | .ok () => []
    | .error e => if e = .missing then [] else [.wrote (attemptEntry attempt e)]

/-- Attempts, the first of which has a given number, with a pause between one and the next. -/
def attemptsEvents (w : StopWatch) (first : Nat) (answers : List (Except FileError Unit)) :
    List Event :=
  [.slept w.deleteBackoff].intercalate
    ((answers.zipIdx first).map fun (answer, attempt) => w.attemptEvents attempt answer)

/-- What is done when no attempt was of use. -/
def giveUpEvents (w : StopWatch) (answers : List (Except FileError Unit)) : List Event :=
  if answers.any isGone then [] else [.wrote (giveUpEntry w.attempts)]

/-- Answers to attempts that go on until the marker is gone, but no longer than a limit. -/
structure Tries (limit : Nat) (answers : List (Except FileError Unit)) : Prop where
  bounded : answers.length ≤ limit
  in_vain : ∀ answer ∈ answers.dropLast, isGone answer = false
  until_gone : answers.length < limit → ∃ answer ∈ answers, isGone answer = true

theorem Tries.nil : Tries 0 [] := ⟨by simp, by simp, by simp⟩

theorem Tries.gone {answer : Except FileError Unit} {limit : Nat} (h : isGone answer = true) :
    Tries (limit + 1) [answer] :=
  ⟨by simp, by simp, fun _ => ⟨answer, by simp, h⟩⟩

theorem Tries.cons {answer : Except FileError Unit} {answers : List (Except FileError Unit)}
    {limit : Nat} (hanswer : isGone answer = false) (h : Tries limit answers) :
    Tries (limit + 1) (answer :: answers) := by
  refine ⟨Nat.succ_le_succ h.bounded, ?_, ?_⟩
  · cases answers with
    | nil => simp
    | cons next rest =>
      rw [List.dropLast_cons_cons]
      exact List.forall_mem_cons.mpr ⟨hanswer, h.in_vain⟩
  · intro hless
    obtain ⟨gone, hmem, hgone⟩ := h.until_gone (Nat.lt_of_succ_lt_succ hless)
    exact ⟨gone, List.mem_cons_of_mem _ hmem, hgone⟩

theorem Tries.ne_nil {answers : List (Except FileError Unit)} {limit : Nat}
    (h : Tries limit answers) (hlimit : 0 < limit) : answers ≠ [] := by
  rintro rfl
  obtain ⟨answer, hmem, -⟩ := h.until_gone hlimit
  exact List.not_mem_nil hmem

theorem attemptsEvents_singleton (first : Nat) (answer : Except FileError Unit) :
    w.attemptsEvents first [answer] = w.attemptEvents first answer := by
  simp [attemptsEvents, List.intercalate]

theorem attemptsEvents_cons (first : Nat) (answer : Except FileError Unit)
    {answers : List (Except FileError Unit)} (h : answers ≠ []) :
    w.attemptsEvents first (answer :: answers) =
      w.attemptEvents first answer ++
        .slept w.deleteBackoff :: w.attemptsEvents (first + 1) answers := by
  cases answers with
  | nil => contradiction
  | cons next rest => simp [attemptsEvents, List.intercalate]

theorem giveUpEvents_cons {answer : Except FileError Unit} {answers : List (Except FileError Unit)}
    (h : isGone answer = false) : w.giveUpEvents (answer :: answers) = w.giveUpEvents answers := by
  simp [giveUpEvents, h]

/-! ## 3. The removal -/

theorem removeOnce_fst (w : StopWatch) (files : FileSystem σ) (write : JournalEntry → σ → σ)
    (attempt : Nat) (s : σ) :
    (w.removeOnce files write attempt s).1 = isGone (files.remove w.marker s).1 := by
  rcases hremove : files.remove w.marker s with ⟨e | _, s'⟩
  · by_cases he : e = .missing <;> simp [removeOnce, hremove, isGone, he]
  · simp [removeOnce, hremove, isGone]

theorem removeOnce_noting (w : StopWatch) (around : Surroundings σ) (attempt : Nat) (s : σ)
    (es : List Event) :
    w.removeOnce around.noting.files around.noting.write attempt (s, es) =
      ((w.removeOnce around.files around.write attempt s).1,
        (w.removeOnce around.files around.write attempt s).2,
        es ++ w.attemptEvents attempt (around.files.remove w.marker s).1) := by
  rcases hremove : around.files.remove w.marker s with ⟨e | _, s'⟩
  · by_cases he : e = .missing <;>
      simp [removeOnce, Surroundings.noting, noted, attemptEvents, hremove, he]
  · simp [removeOnce, Surroundings.noting, noted, attemptEvents, hremove]

theorem consume_noting (w : StopWatch) (around : Surroundings σ) (left attempt : Nat) (s : σ)
    (es : List Event) :
    ∃ answers, Tries left answers ∧ w.consume around.noting left attempt (s, es) =
      (w.consume around left attempt s,
        es ++ w.attemptsEvents attempt answers ++ w.giveUpEvents answers) := by
  induction left generalizing attempt s es with
  | zero => exact ⟨[], .nil, by simp [consume, attemptsEvents, giveUpEvents, Surroundings.noting]⟩
  | succ left ih =>
    have hnoting := w.removeOnce_noting around attempt s es
    have hgone := w.removeOnce_fst around.files around.write attempt s
    generalize (around.files.remove w.marker s).1 = answer at hnoting hgone
    rcases honce : w.removeOnce around.files around.write attempt s with ⟨_ | _, s'⟩
    · rw [honce] at hnoting hgone
      simp only [consume, honce, hnoting]
      cases left with
      | zero =>
        refine ⟨[answer], .cons hgone.symm .nil, ?_⟩
        simp [consume, attemptsEvents_singleton, giveUpEvents, ← hgone, Surroundings.noting]
      | succ left =>
        obtain ⟨answers, htries, hrest⟩ := ih (attempt + 1) (around.sleep w.deleteBackoff s')
          (es ++ w.attemptEvents attempt answer ++ [.slept w.deleteBackoff])
        refine ⟨answer :: answers, .cons hgone.symm htries, ?_⟩
        rw [attemptsEvents_cons attempt answer (htries.ne_nil left.succ_pos),
          giveUpEvents_cons hgone.symm]
        simpa [Surroundings.noting] using hrest
    · rw [honce] at hnoting hgone
      refine ⟨[answer], .gone hgone.symm, ?_⟩
      simp only [consume, honce, hnoting, attemptsEvents_singleton]
      simp [giveUpEvents, ← hgone]

/-! ## 4. A look, and a whole watch -/

/-- What is done about the answer to a look. -/
def AfterLook (w : StopWatch) : Except FileError Unit → List Event → Prop
  | .ok (), es => ∃ answers, answers ≠ [] ∧ Tries w.attempts answers ∧
      es = w.attemptsEvents 1 answers ++ w.giveUpEvents answers
  | .error e, es => es = if e = .missing then [] else [.wrote (probeEntry e)]

/-- What a watch does while nothing ends it. -/
def Event.IsIdle (w : StopWatch) : Event → Prop
  | .looked path answer => path = w.marker ∧ answer ≠ .ok ()
  | .removed .. | .slept _ => False
  | .wrote e => ∃ error, error ≠ .missing ∧ e = probeEntry error
  | .dozed d _ => d = w.pollInterval

/-- What is done until a watch ends, or has not ended yet. -/
def Course (w : StopWatch) : Option StopTrigger → List Event → Prop
  | some .stopCommand, es => ∃ idle more, (∀ e ∈ idle, e.IsIdle w) ∧ w.AfterLook (.ok ()) more ∧
      es = idle ++ .looked w.marker (.ok ()) :: more
  | some .interrupted, es | none, es => ∀ e ∈ es, e.IsIdle w

theorem Course.after {ending : Option StopTrigger} {idle es : List Event}
    (hidle : ∀ e ∈ idle, e.IsIdle w) (h : w.Course ending es) : w.Course ending (idle ++ es) := by
  match ending, h with
  | some .stopCommand, ⟨earlier, more, hearlier, hmore, hes⟩ =>
    refine ⟨idle ++ earlier, more, List.forall_mem_append.mpr ⟨hidle, hearlier⟩, hmore, ?_⟩
    rw [hes, List.append_assoc]
  | some .interrupted, h | none, h => exact List.forall_mem_append.mpr ⟨hidle, h⟩

theorem AfterLook.isIdle {e : FileError} {more : List Event} (h : w.AfterLook (.error e) more) :
    ∀ event ∈ more, event.IsIdle w := by
  rw [AfterLook] at h
  split at h
  · simp [h]
  · rename_i he
    simpa [h, Event.IsIdle] using ⟨e, he, rfl⟩

theorem attempts_eq (w : StopWatch) : w.attempts = max w.deleteAttempts.toNat 1 :=
  Word.toNat_max w.deleteAttempts 1

theorem attempts_pos (w : StopWatch) : 0 < w.attempts :=
  w.attempts_eq ▸ Nat.lt_of_lt_of_le Nat.one_pos (Nat.le_max_right _ _)

theorem poll_noting (w : StopWatch) (around : Surroundings σ) (s : σ) (es : List Event) :
    ∃ more, w.poll around.noting (s, es) = ((w.poll around s).1, (w.poll around s).2,
        es ++ .looked w.marker (around.files.probe w.marker s).1 :: more) ∧
      w.AfterLook (around.files.probe w.marker s).1 more := by
  rcases hprobe : around.files.probe w.marker s with ⟨e | _, s'⟩
  · refine ⟨if e = .missing then [] else [.wrote (probeEntry e)], ?_, rfl⟩
    by_cases he : e = .missing <;>
      simp [poll, seesMarker, Surroundings.noting, noted, hprobe, he]
  · obtain ⟨answers, htries, hconsume⟩ := w.consume_noting around w.attempts 1 s'
      (es ++ [.looked w.marker (.ok ())])
    refine ⟨_, ?_, answers, htries.ne_nil w.attempts_pos, htries, rfl⟩
    have hlook : around.noting.files.probe w.marker (s, es) =
        (.ok (), s', es ++ [.looked w.marker (.ok ())]) := by
      simp [Surroundings.noting, noted, hprobe]
    simp only [poll, seesMarker, hprobe, hlook, hconsume]
    simp

theorem round_noting (w : StopWatch) (around : Surroundings σ) (s : σ) (es : List Event) :
    ∃ more, w.round around.noting (s, es) =
        ((w.round around s).1, (w.round around s).2, es ++ more) ∧
      w.Course (w.round around s).1 more := by
  obtain ⟨more, hpoll, hmore⟩ := w.poll_noting around s es
  have hsame : around.noting.interrupted (s, es) = around.interrupted s := rfl
  simp only [round, hsame, hpoll]
  by_cases hhalted : around.interrupted s = true
  · exact ⟨[], by simp [hhalted], by simp [hhalted, Course]⟩
  · simp only [hhalted, Bool.false_eq_true, if_false]
    have hfound := w.poll_fst around s
    rw [Finds, before] at hfound
    rcases hs : w.poll around s with ⟨_ | _, s'⟩
    · rw [hs] at hfound hpoll
      -- The look has not found the marker, so that everything up to the end of the sleep is idle.
      obtain ⟨e, he⟩ : ∃ e, (around.files.probe w.marker s).1 = .error e := by
        cases hanswer : (around.files.probe w.marker s).1 with
        | error e => exact ⟨e, rfl⟩
        | ok _ => exact absurd (hfound.mpr hanswer) Bool.false_ne_true
      rw [he] at hmore ⊢
      rcases hdoze : around.doze w.pollInterval s' with ⟨woken, s''⟩
      have hidle : ∀ event ∈ Event.looked w.marker (.error e) :: more ++
          [.dozed w.pollInterval woken], event.IsIdle w := by
        simpa [or_imp, forall_and, Event.IsIdle] using hmore.isIdle
      refine ⟨.looked w.marker (.error e) :: more ++ [.dozed w.pollInterval woken], ?_, ?_⟩
      · cases woken <;> simp [Surroundings.noting, noted, hdoze]
      · cases woken <;> simp only [hdoze] <;> exact hidle
    · rw [hs] at hfound
      have hanswer := hfound.mp rfl
      rw [hanswer] at hmore ⊢
      exact ⟨_, rfl, [], more, by simp, hmore, rfl⟩

theorem wait_noting (w : StopWatch) (around : Surroundings σ) (rounds : Nat) (s : σ)
    (es : List Event) :
    ∃ more, w.wait around.noting rounds (s, es) =
        ((w.wait around rounds s).1, (w.wait around rounds s).2, es ++ more) ∧
      w.Course (w.wait around rounds s).1 more := by
  induction rounds generalizing s es with
  | zero => exact ⟨[], by simp [wait], by simp [wait, Course]⟩
  | succ rounds ih =>
    obtain ⟨more, hround, hmore⟩ := w.round_noting around s es
    rcases hs : w.round around s with ⟨_ | trigger, s'⟩
    · rw [hs] at hround hmore
      obtain ⟨rest, hwait, hrest⟩ := ih s' (es ++ more)
      refine ⟨more ++ rest, ?_, ?_⟩
      · simp only [wait, hs, hround, hwait, List.append_assoc]
      · simpa only [wait, hs] using hrest.after hmore
    · rw [hs] at hround hmore
      exact ⟨more, by simp only [wait, hs, hround], by simpa only [wait, hs] using hmore⟩

/-- A watch ends with the stop command if a look that is made before the interrupt is noticed finds
the marker, and is interrupted if none does and the interrupt is noticed, once and for all; until
then it only looks, notes what kept it from looking, and sleeps. A look finds the marker if and only if it is told that
the marker is there, and the marker is then removed: in as many attempts as the settings allow at
most, and none after one that leaves no marker, with a pause between two attempts, and an entry at
the end if all were in vain. -/
theorem watch_obeys_marker (w : StopWatch) (around : Surroundings σ) (s : σ) :
    (∀ rounds,
      ((w.wait around rounds s).1 = some .stopCommand ↔ w.Commanded around rounds s) ∧
      ((w.wait around rounds s).1 = some .interrupted ↔
        w.Called around rounds s ∧ ¬w.Commanded around rounds s) ∧
      ((w.wait around rounds s).1 = none ↔
        ¬w.Called around rounds s ∧ ¬w.Commanded around rounds s)) ∧
    (∀ rounds more, (w.wait around rounds s).1 ≠ none →
      w.wait around (rounds + more) s = w.wait around rounds s) ∧
    (∀ rounds, ∃ es,
      w.wait around.noting rounds (s, []) =
        ((w.wait around rounds s).1, (w.wait around rounds s).2, es) ∧
      w.Course (w.wait around rounds s).1 es) ∧
    ((w.poll around s).1 = true ↔ (around.files.probe w.marker s).1 = .ok ()) ∧
    (∃ es,
      w.poll around.noting (s, []) = ((w.poll around s).1, (w.poll around s).2,
        .looked w.marker (around.files.probe w.marker s).1 :: es) ∧
      w.AfterLook (around.files.probe w.marker s).1 es) ∧
    w.attempts = max w.deleteAttempts.toNat 1 := by
  refine ⟨fun rounds => w.wait_iff around rounds s, ?_, fun rounds => ?_, w.poll_fst around s,
    w.poll_noting around s [], w.attempts_eq⟩
  · exact fun rounds more => w.wait_ended around rounds more s
  · exact w.wait_noting around rounds s []

end StopWatch

end SupervisedWorker
