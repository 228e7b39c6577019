import Mathlib.Data.List.Infix
import Mathlib.Data.List.Pairwise
import Mathlib.Order.Monotone.Basic
import SupervisedWorker.Proofs.Monitor
import SupervisedWorker.StallSampler

/-!
# Stalls are accounted for

A monitor reads the clock whenever it takes a sample and whenever it finishes a round. The time from
one reading to the next is a wait if a sample ends it, and a round otherwise. What a wait exceeds the
period by is counted, and nothing else is.

Results:
1. `pauses_inits`, `sum_pauses`: the differences of running sums are what was summed up.
2. `sum_excesses_add_sum_rounds_le`: what is counted and the rounds fit between the first reading and
   the last one.
3. `Tracks.shows`: what a run of the monitor notes about its samples, its warnings and the clock.
4. `Measured.step`, `measured_along`: the sampler keeps the running sum of what is to be counted.
5. `stalls_accounted`: all of it about runs from the start.
-/

namespace SupervisedWorker

/-! ## 1. Sums and differences -/

namespace Duration

theorem nanos_add (a b : Duration) : (a + b).nanos = a.nanos + b.nanos := rfl

theorem nanos_sub (a b : Duration) : (a - b).nanos = a.nanos - b.nanos := rfl

theorem le_iff_nanos {a b : Duration} : a ≤ b ↔ a.nanos ≤ b.nanos := Iff.rfl

instance : Std.Refl fun a b : Duration => a ≤ b := ⟨fun d => Nat.le_refl d.nanos⟩

/-- The sum of some spans. -/
def sum : List Duration → Duration
  | [] => .zero
  | d :: ds => d + sum ds

theorem sum_append (ds ds' : List Duration) : sum (ds ++ ds') = sum ds + sum ds' := by
  induction ds with
  | nil => exact congrArg mk (Nat.zero_add (sum ds').nanos).symm
  | cons d ds ih =>
    rw [List.cons_append, sum, ih, sum]
    exact congrArg mk (Nat.add_assoc d.nanos (sum ds).nanos (sum ds').nanos).symm

theorem sum_singleton (d : Duration) : sum [d] = d := rfl

theorem sum_concat (ds : List Duration) (d : Duration) : sum (ds ++ [d]) = sum ds + d :=
  sum_append ds [d]

theorem sum_le_of_prefix {ds ds' : List Duration} (h : ds <+: ds') : sum ds ≤ sum ds' := by
  obtain ⟨rest, rfl⟩ := h
  rw [sum_append]
  exact Nat.le_add_right _ _

theorem add_sub_self_left (a b : Duration) : a + b - a = b :=
  congrArg mk (Nat.add_sub_cancel_left a.nanos b.nanos)

/-- The longest span that can be counted: seconds in 64 bits and the nanoseconds below a second. -/
def largest : Duration := ⟨(UInt64.size - 1) * 1000000000 + 999999999⟩

/-- The sum of two spans, if it can be counted. -/
def checkedAdd (a b : Duration) : Option Duration := if a + b ≤ largest then some (a + b) else none

end Duration

/-- The pairs of values that follow each other. -/
def consecutive {α : Type} (l : List α) : List (α × α) := l.zip l.tail

theorem consecutive_concat {α : Type} (l : List α) (a b : α) :
    consecutive (l ++ [a] ++ [b]) = consecutive (l ++ [a]) ++ [(a, b)] := by
  induction l with
  | nil => rfl
  | cons x l ih =>
    cases l with
    | nil => rfl
    | cons y l => exact congrArg ((x, y) :: ·) ih

/-- By how much each value exceeds the one before it. -/
def pauses (totals : List Duration) : List Duration :=
  (consecutive totals).map fun pair => pair.2 - pair.1

theorem pauses_concat (totals : List Duration) (last total : Duration) :
    pauses (totals ++ [last] ++ [total]) = pauses (totals ++ [last]) ++ [total - last] := by
  rw [pauses, consecutive_concat, List.map_append]
  rfl

theorem inits_concat {α : Type} (l : List α) (a : α) : (l ++ [a]).inits = l.inits ++ [l ++ [a]] := by
  simp [List.inits_append]

/-- Running sums end with the whole sum. -/
theorem sums_eq_concat (ds : List Duration) :
    ∃ before, ds.inits.map Duration.sum = before ++ [Duration.sum ds] := by
  cases ds using List.reverseRecOn with
  | nil => exact ⟨[], rfl⟩
  | append_singleton ds d =>
    exact ⟨ds.inits.map Duration.sum, by rw [inits_concat, List.map_append]; rfl⟩

/-- Running sums differ by what was summed up. -/
theorem pauses_inits (ds : List Duration) : pauses (ds.inits.map Duration.sum) = ds := by
  induction ds using List.reverseRecOn with
  | nil => rfl
  | append_singleton ds d ih =>
    obtain ⟨before, hsums⟩ := sums_eq_concat ds
    rw [hsums] at ih
    rw [inits_concat, List.map_append, hsums, List.map_singleton, pauses_concat, ih,
      Duration.sum_concat, Duration.add_sub_self_left]

theorem pairwise_inits (ds : List Duration) : (ds.inits.map Duration.sum).Pairwise (· ≤ ·) := by
  induction ds using List.reverseRecOn with
  | nil => exact List.pairwise_singleton _ _
  | append_singleton ds d ih =>
    rw [inits_concat, List.map_append, List.pairwise_append]
    refine ⟨ih, List.pairwise_singleton _ _, ?_⟩
    intro total htotal whole hwhole
    obtain ⟨front, hfront, rfl⟩ := List.mem_map.mp htotal
    rw [List.map_singleton, List.mem_singleton] at hwhole
    rw [hwhole]
    exact Duration.sum_le_of_prefix
      (((List.mem_inits _ _).mp hfront).trans (List.prefix_append ds [d]))

/-- From the first value to the last one, the differences add up. -/
theorem sum_pauses {totals : List Duration} (h : totals.Pairwise (· ≤ ·)) {first last : Duration}
    (hfirst : totals.head? = some first) (hlast : totals.getLast? = some last) :
    Duration.sum (pauses totals) = last - first := by
  induction totals generalizing first with
  | nil => cases hfirst
  | cons a totals ih =>
    obtain rfl : a = first := Option.some.inj hfirst
    cases totals with
    | nil =>
      obtain rfl : a = last := Option.some.inj hlast
      exact congrArg Duration.mk (Nat.sub_self a.nanos).symm
    | cons b totals =>
      rw [List.getLast?_cons_cons] at hlast
      have hstep : a ≤ b := List.rel_of_pairwise_cons h List.mem_cons_self
      have hrest : b ≤ last := h.of_cons.rel_head (List.mem_of_getLast? hlast)
      have hsum : Duration.sum (pauses (b :: totals)) = last - b := ih h.of_cons rfl hlast
      have hcons : pauses (a :: b :: totals) = [b - a] ++ pauses (b :: totals) := rfl
      rw [hcons, Duration.sum_append, hsum, Duration.sum_singleton]
      simp only [Duration.le_iff_nanos] at hstep hrest
      exact congrArg Duration.mk (by simp only [Duration.nanos_sub]; omega)

namespace Monitor

/-! ## 2. Waits and rounds -/

/-- The calls that read the clock, and what they read. -/
abbrev Readings := List (Callee × Duration)

/-- By how much each wait exceeds the period, which a sample ends. -/
def excesses (expected : Duration) (readings : Readings) : List Duration :=
  (consecutive readings).filterMap fun pair =>
    if pair.2.1 = .sample then some (pair.2.2 - pair.1.2 - expected) else none

/-- How long the rounds took that were finished. -/
def rounds (readings : Readings) : List Duration :=
  (consecutive readings).filterMap fun pair =>
    if pair.2.1 = .roundFinished then some (pair.2.2 - pair.1.2) else none

theorem excesses_concat (expected : Duration) (readings : Readings) (last call : Callee × Duration) :
    excesses expected (readings ++ [last] ++ [call]) = excesses expected (readings ++ [last]) ++
      if call.1 = .sample then [call.2 - last.2 - expected] else [] := by
  rw [excesses, consecutive_concat, List.filterMap_append, ← excesses]
  by_cases hcall : call.1 = .sample <;> simp [hcall]

theorem rounds_concat (readings : Readings) (last call : Callee × Duration) :
    rounds (readings ++ [last] ++ [call]) = rounds (readings ++ [last]) ++
      if call.1 = .roundFinished then [call.2 - last.2] else [] := by
  rw [rounds, consecutive_concat, List.filterMap_append, ← rounds]
  by_cases hcall : call.1 = .roundFinished <;> simp [hcall]

/-- What is counted and the rounds lie apart from each other, between the first reading and the last
one. -/
theorem sum_excesses_add_sum_rounds_le (expected : Duration) {readings : Readings}
    (h : (readings.map Prod.snd).Pairwise (· ≤ ·)) {first last : Callee × Duration}
    (hfirst : readings.head? = some first) (hlast : readings.getLast? = some last) :
    Duration.sum (excesses expected readings) + Duration.sum (rounds readings) ≤
      last.2 - first.2 := by
  suffices hsum : ∀ (readings : Readings) (last : Callee × Duration),
      ((readings ++ [last]).map Prod.snd).Pairwise (· ≤ ·) →
      ∀ first ∈ (readings ++ [last]).head?, first.2 ≤ last.2 ∧
        Duration.sum (excesses expected (readings ++ [last])) +
          Duration.sum (rounds (readings ++ [last])) ≤ last.2 - first.2 by
    obtain ⟨front, rfl⟩ := List.getLast?_eq_some_iff.mp hlast
    exact (hsum front last h first hfirst).2
  intro readings
  -- By the last reading: the time since the one before it is a wait, or a round, and not both.
  induction readings using List.reverseRecOn with
  | nil =>
    rintro last - first ⟨⟩
    exact ⟨Nat.le_refl _, Nat.zero_le _⟩
  | append_singleton readings before ih =>
    intro last h first hfirst
    rw [List.map_append, List.pairwise_append] at h
    have hhead : first ∈ (readings ++ [before]).head? := by
      rwa [List.head?_append_of_ne_nil _ (by simp)] at hfirst
    obtain ⟨hle, hsum⟩ := ih before h.1 first hhead
    have hstep : before.2 ≤ last.2 :=
      h.2.2 before.2 (List.mem_map_of_mem (by simp)) last.2 (by simp)
    refine ⟨Nat.le_trans hle hstep, ?_⟩
    have hnew : Duration.sum (if last.1 = .sample then [last.2 - before.2 - expected] else []) +
        Duration.sum (if last.1 = .roundFinished then [last.2 - before.2] else []) ≤
          last.2 - before.2 := by
      cases last.1 with
      | sample => exact Nat.sub_le (last.2 - before.2).nanos expected.nanos
      | roundFinished => exact Nat.le_of_eq (Nat.zero_add _)
      | housekeeping | agent => exact Nat.zero_le _
    rw [excesses_concat, rounds_concat, Duration.sum_append, Duration.sum_append]
    simp only [Duration.le_iff_nanos, Duration.nanos_add, Duration.nanos_sub] at hle hsum hstep hnew ⊢
    omega

theorem sum_front_excesses_le {expected : Duration} {readings : Readings}
    (h : (readings.map Prod.snd).Pairwise (· ≤ ·)) {first last : Callee × Duration}
    (hfirst : readings.head? = some first) (hlast : readings.getLast? = some last)
    {front : List Duration} (hfront : front <+: excesses expected readings) :
    Duration.sum front ≤ last.2 - first.2 :=
  Nat.le_trans (Duration.sum_le_of_prefix hfront)
    (Nat.le_trans (Nat.le_add_right _ _) (sum_excesses_add_sum_rounds_le expected h hfirst hlast))

/-! ## 3. What a run notes -/

variable {σ : Type} {m : Monitor} {around : Surroundings σ} {phase : Phase} {es : List Event}

/-- What the samples have shown. -/
def totals (es : List Event) : List Duration :=
  es.filterMap fun
    | .sampled total => some total
    | _ => none

/-- What the monitor has written to the journal. -/
def entries (es : List Event) : List JournalEntry :=
  es.filterMap fun
    | .wrote e => some e
    | _ => none

/-- Whether a call reads the clock. -/
def Callee.readsClock : Callee → Bool
  | .sample | .roundFinished => true
  | .housekeeping | .agent => false

/-- The calls that read the clock, in order. -/
def readers (es : List Event) : List Callee := (callees es).filter Callee.readsClock

/-- The warnings of a monitor whose samples have shown these times. -/
def warnings (m : Monitor) (totals : List Duration) : List JournalEntry :=
  ((pauses totals).filter fun pause => m.pauseWarning < pause).map fun pause =>
    pauseEntry pause m.pauseWarning

theorem totals_append (es es' : List Event) : totals (es ++ es') = totals es ++ totals es' :=
  List.filterMap_append

theorem entries_append (es es' : List Event) : entries (es ++ es') = entries es ++ entries es' :=
  List.filterMap_append

theorem readers_append (es es' : List Event) : readers (es ++ es') = readers es ++ readers es' := by
  rw [readers, callees_append, List.filter_append]
  rfl

theorem warnings_cons (last total : Duration) (sums : List Duration) :
    m.warnings (last :: total :: sums) = m.warnings [last, total] ++ m.warnings (total :: sums) := by
  rw [warnings, warnings, warnings, ← List.map_append, ← List.filter_append]
  rfl

/-- Calls that neither read the clock nor write anything. -/
structure Quiet (es : List Event) : Prop where
  totals_eq : totals es = []
  entries_eq : entries es = []
  readers_eq : readers es = []

theorem quiet_nil : Quiet [] := ⟨rfl, rfl, rfl⟩

theorem Quiet.append {es es' : List Event} (h : Quiet es) (h' : Quiet es') : Quiet (es ++ es') where
  totals_eq := by rw [totals_append, h.totals_eq, h'.totals_eq, List.append_nil]
  entries_eq := by rw [entries_append, h.entries_eq, h'.entries_eq, List.append_nil]
  readers_eq := by rw [readers_append, h.readers_eq, h'.readers_eq, List.append_nil]

theorem quiet_house : Quiet around.houseEvents := by
  rw [Surroundings.houseEvents]
  split <;> exact ⟨rfl, rfl, rfl⟩

theorem quiet_life (life : AgentLife) : Quiet (around.lifeEvents life) := by
  rw [Surroundings.lifeEvents]
  split <;> exact ⟨rfl, rfl, rfl⟩

theorem totals_sample (last total : Duration) : totals (m.sampleEvents last total) = [total] := by
  rw [sampleEvents]
  split <;> rfl

theorem readers_sample (last total : Duration) :
    readers (m.sampleEvents last total) = [.sample] := by
  rw [readers, callees_sample]
  rfl

theorem entries_sample (last total : Duration) :
    entries (m.sampleEvents last total) = m.warnings [last, total] := by
  rw [sampleEvents, warnings, pauses]
  by_cases hpause : m.pauseWarning < total - last <;> simp [entries, consecutive, hpause]

variable (m around) in
/-- A round adds its sample, and the clock is read again at its end. -/
theorem round_shows (last total : Duration) :
    totals (m.roundEvents around last total) = [total] ∧
    entries (m.roundEvents around last total) = m.warnings [last, total] ∧
    readers (m.roundEvents around last total) = [.sample, .roundFinished] := by
  have hhouse : Quiet around.houseEvents := quiet_house
  have hlife : Quiet (around.lifeEvents .alive) := quiet_life .alive
  simp only [roundEvents, totals_append, entries_append, readers_append, totals_sample,
    entries_sample, readers_sample, hhouse.totals_eq, hhouse.entries_eq, hhouse.readers_eq,
    hlife.totals_eq, hlife.entries_eq, hlife.readers_eq, List.append_nil]
  exact ⟨rfl, List.append_nil _, rfl⟩

variable (m around) in
theorem sleep_shows (first : Duration) (sums : List Duration) :
    totals (m.sleepEvents around first sums) = first :: sums ∧
    entries (m.sleepEvents around first sums) = m.warnings (first :: sums) ∧
    readers (m.sleepEvents around first sums) =
      .sample :: (List.replicate sums.length [Callee.sample, .roundFinished]).flatten := by
  suffices h : ∀ last, totals (m.roundsEvents around last sums) = sums ∧
      entries (m.roundsEvents around last sums) = m.warnings (last :: sums) ∧
      readers (m.roundsEvents around last sums) =
        (List.replicate sums.length [Callee.sample, .roundFinished]).flatten by
    obtain ⟨htotals, hentries, hreaders⟩ := h first
    exact ⟨congrArg (first :: ·) htotals, hentries, congrArg (Callee.sample :: ·) hreaders⟩
  induction sums with
  | nil => exact fun _ => ⟨rfl, rfl, rfl⟩
  | cons total sums ih =>
    intro last
    obtain ⟨htotals, hentries, hreaders⟩ := ih total
    obtain ⟨htotals', hentries', hreaders'⟩ := round_shows m around last total
    rw [roundsEvents, totals_append, entries_append, readers_append, htotals, htotals', hentries,
      hentries', hreaders, hreaders', warnings_cons last total sums]
    exact ⟨rfl, rfl, rfl⟩

/-- Up to calls that matter neither to the clock nor to the journal, a monitor has finished some
rounds and perhaps taken the sample of another one. -/
theorem Tracks.shape {n : Nat} (h : Tracks m around phase es n) : es = [] ∨
    ∃ first sums part more, es = m.sleepEvents around first sums ++ part ++ more ∧ Quiet more ∧
      (part = [] ∨ ∃ total, part = m.sampleEvents (sums.getLastD first) total) := by
  cases h with
  | starting => exact .inl rfl
  | asleep first sums | cancelled first sums =>
    exact .inr ⟨first, sums, [], [], by simp, quiet_nil, .inl rfl⟩
  | sampled first sums total =>
    exact .inr ⟨first, sums, _, [], by simp, quiet_nil, .inr ⟨total, rfl⟩⟩
  | kept first sums total =>
    exact .inr ⟨first, sums, _, _, rfl, quiet_house, .inr ⟨total, rfl⟩⟩
  | checked first sums total | lost first sums total =>
    exact .inr ⟨first, sums, _, _, List.append_assoc _ _ _, quiet_house.append (quiet_life _),
      .inr ⟨total, rfl⟩⟩

/-- The monitor warns of exactly the long pauses between its samples, and it reads the clock for a
first sample and then for the sample and at the end of each round. -/
theorem Tracks.shows {n : Nat} (h : Tracks m around phase es n) :
    entries es = m.warnings (totals es) ∧
    ∃ k, readers es <+:
      .sample :: (List.replicate k [Callee.sample, .roundFinished]).flatten := by
  obtain rfl | ⟨first, sums, part, more, rfl, hmore, rfl | ⟨total, rfl⟩⟩ := h.shape
  · exact ⟨rfl, 0, List.nil_prefix⟩
  · obtain ⟨htotals, hentries, hreaders⟩ := sleep_shows m around first sums
    simp only [entries_append, totals_append, readers_append, hmore.entries_eq, hmore.totals_eq,
      hmore.readers_eq, List.append_nil]
    exact ⟨by rw [hentries, htotals], sums.length, by rw [hreaders]⟩
  · -- As far as it goes, this is what is noted once the round is finished.
    obtain ⟨htotals, hentries, hreaders⟩ :=
      sleep_shows m around first (sums ++ [total])
    obtain ⟨htotals', hentries', hreaders'⟩ :=
      round_shows m around (sums.getLastD first) total
    rw [sleepEvents_concat] at htotals hentries hreaders
    rw [totals_append, htotals'] at htotals
    rw [entries_append, hentries'] at hentries
    rw [readers_append, hreaders'] at hreaders
    simp only [entries_append, totals_append, readers_append, hmore.entries_eq, hmore.totals_eq,
      hmore.readers_eq, List.append_nil, entries_sample, totals_sample, readers_sample]
    refine ⟨by rw [hentries, htotals], (sums ++ [total]).length, ?_⟩
    rw [← hreaders]
    exact (List.prefix_append_right_inj _).mpr ⟨[Callee.roundFinished], rfl⟩

/-! ## 4. A monitor that measures stalls -/

variable {expected : Duration} {clock : Nat → Duration} {sampler : StallSampler}
  {readings : Readings}

/-- Surroundings where a sampler measures the stalls and the readings of the clock are noted, which
shows one time after the other. -/
def Surroundings.stalling (around : Surroundings σ) (clock : Nat → Duration) :
    Surroundings (σ × StallSampler × Readings) where
  cancelled x := around.cancelled x.1
  sample x :=
    let now := clock x.2.2.length
    let (total, sampler) := x.2.1.sample now
    (total, (around.sample x.1).2, sampler, x.2.2 ++ [(.sample, now)])
  housekeeping := around.housekeeping.map fun tick x => (tick x.1, x.2)
  agent := around.agent.map fun ask x => ((ask x.1).1, (ask x.1).2, x.2)
  roundFinished x :=
    let now := clock x.2.2.length
    (around.roundFinished x.1, x.2.1.roundFinished now, x.2.2 ++ [(.roundFinished, now)])
  write e x := (around.write e x.1, x.2)

/-- Who changes the surroundings leaves the sampler alone. -/
def Turn.stalling : Turn σ → Turn (σ × StallSampler × Readings)
  | .monitor => .monitor
  | .outside change => .outside fun x => (change x.1, x.2)

/-- The sampler holds the sum of what is to be counted, and the samples have shown the running
sums. -/
structure Measured (expected : Duration) (clock : Nat → Duration) (phase : Phase)
    (sampler : StallSampler) (readings : Readings) (es : List Event) : Prop where
  expected_eq : sampler.expected = expected
  lastWake : sampler.lastWake = readings.getLast?.map Prod.snd
  paused : sampler.paused = Duration.sum (excesses expected readings)
  totals_eq : readings ≠ [] → totals es = (excesses expected readings).inits.map Duration.sum
  starting : readings = [] → phase = .starting ∧ es = []
  times : readings.map Prod.snd = (List.range readings.length).map clock
  readers_eq : readings.map Prod.fst = readers es

theorem measured_start (expected : Duration) (clock : Nat → Duration) :
    Measured expected clock .starting (.fresh expected) [] [] where
  expected_eq := rfl
  lastWake := rfl
  paused := rfl
  totals_eq := fun h => absurd rfl h
  starting := fun _ => ⟨rfl, rfl⟩
  times := rfl
  readers_eq := rfl

/-- Before the first reading nothing has been shown. -/
theorem Measured.totals_cases (h : Measured expected clock phase sampler readings es) :
    readings = [] ∧ totals es = [] ∨
      totals es = (excesses expected readings).inits.map Duration.sum := by
  by_cases hreadings : readings = []
  · exact .inl ⟨hreadings, by rw [(h.starting hreadings).2]; rfl⟩
  · exact .inr (h.totals_eq hreadings)

theorem Measured.pairwise_totals (h : Measured expected clock phase sampler readings es) :
    (totals es).Pairwise (· ≤ ·) := by
  obtain ⟨-, hnil⟩ | hsums := h.totals_cases
  · exact hnil ▸ .nil
  · exact hsums ▸ pairwise_inits _

theorem Measured.pauses_totals (h : Measured expected clock phase sampler readings es) :
    pauses (totals es) = excesses expected readings := by
  obtain ⟨hnil, htotals⟩ | hsums := h.totals_cases
  · rw [htotals, hnil]
    rfl
  · rw [hsums, pauses_inits]

/-- What was shown is a sum of excesses from the first one on. -/
theorem Measured.exists_front (h : Measured expected clock phase sampler readings es)
    {total : Duration} (htotal : total ∈ totals es) :
    ∃ front, front <+: excesses expected readings ∧ Duration.sum front = total := by
  obtain ⟨-, hnil⟩ | hsums := h.totals_cases
  · rw [hnil] at htotal
    exact absurd htotal List.not_mem_nil
  · rw [hsums] at htotal
    obtain ⟨front, hfront, hsum⟩ := List.mem_map.mp htotal
    exact ⟨front, (List.mem_inits _ _).mp hfront, hsum⟩

/-- Quiet calls leave the measurement alone. -/
theorem Measured.other (h : Measured expected clock phase sampler readings es)
    (hstarted : phase ≠ .starting) {more : List Event} (hquiet : Quiet more) (next : Phase) :
    Measured expected clock next sampler readings (es ++ more) where
  expected_eq := h.expected_eq
  lastWake := h.lastWake
  paused := h.paused
  totals_eq := fun hreadings => by
    rw [totals_append, hquiet.totals_eq, List.append_nil]
    exact h.totals_eq hreadings
  starting := fun hreadings => absurd (h.starting hreadings).1 hstarted
  times := h.times
  readers_eq := by rw [readers_append, hquiet.readers_eq, List.append_nil, h.readers_eq]

theorem Measured.times_concat (h : Measured expected clock phase sampler readings es)
    (callee : Callee) : (readings ++ [(callee, clock readings.length)]).map Prod.snd =
      (List.range (readings ++ [(callee, clock readings.length)]).length).map clock := by
  rw [List.map_append, h.times, List.length_append, List.length_singleton, List.range_succ,
    List.map_append]
  rfl

theorem Measured.readers_concat (h : Measured expected clock phase sampler readings es)
    {more : List Event} {callee : Callee}
    (hreaders : readers more = [callee]) (now : Duration) :
    (readings ++ [(callee, now)]).map Prod.fst = readers (es ++ more) := by
  rw [List.map_append, h.readers_eq, readers_append, hreaders]
  rfl

/-- A sample shows and keeps one sum more, which counts the wait before it. -/
theorem Measured.sample (h : Measured expected clock phase sampler readings es) {more : List Event}
    (htotals : totals more = [(sampler.sample (clock readings.length)).1])
    (hreaders : readers more = [Callee.sample]) (next : Phase) :
    Measured expected clock next (sampler.sample (clock readings.length)).2
      (readings ++ [(Callee.sample, clock readings.length)]) (es ++ more) := by
  have htimes := h.times_concat Callee.sample
  have hreaders' := h.readers_concat hreaders (clock readings.length)
  obtain ⟨expected', lastWake, paused⟩ := sampler
  obtain rfl : expected' = expected := h.expected_eq
  rcases List.eq_nil_or_concat readings with rfl | ⟨front, last, rfl⟩
  · -- The first sample has no wait before it.
    obtain rfl : lastWake = none := h.lastWake
    obtain rfl : paused = .zero := h.paused
    obtain ⟨-, rfl⟩ := h.starting rfl
    exact ⟨rfl, rfl, rfl, fun _ => htotals, nofun, htimes, hreaders'⟩
  · rw [List.concat_eq_append] at *
    generalize clock (front ++ [last]).length = now at *
    obtain rfl : lastWake = some last.2 := by simpa using h.lastWake
    obtain rfl : paused = Duration.sum (excesses expected' (front ++ [last])) := h.paused
    have hsum : Duration.sum (excesses expected' (front ++ [last] ++ [(Callee.sample, now)])) =
        Duration.sum (excesses expected' (front ++ [last])) + (now - last.2 - expected') := by
      rw [excesses_concat, Duration.sum_append]
      rfl
    refine ⟨rfl, ?_, hsum.symm, fun _ => ?_, fun hnil => absurd hnil (by simp), htimes, hreaders'⟩
    · rw [List.getLast?_concat]
      rfl
    · rw [totals_append, h.totals_eq (by simp), htotals]
      rw [excesses_concat, if_pos rfl] at hsum ⊢
      rw [inits_concat, List.map_append, List.map_singleton, hsum]
      rfl

/-- The end of a round is where the next wait begins. -/
theorem Measured.finish (h : Measured expected clock phase sampler readings es)
    (hstarted : phase ≠ .starting) {more : List Event} (htotals : totals more = [])
    (hreaders : readers more = [Callee.roundFinished]) (next : Phase) :
    Measured expected clock next (sampler.roundFinished (clock readings.length))
      (readings ++ [(Callee.roundFinished, clock readings.length)]) (es ++ more) := by
  have htimes := h.times_concat Callee.roundFinished
  have hreaders' := h.readers_concat hreaders (clock readings.length)
  rcases List.eq_nil_or_concat readings with rfl | ⟨front, last, rfl⟩
  · exact absurd (h.starting rfl).1 hstarted
  · rw [List.concat_eq_append] at *
    have hsame (now : Duration) :
        excesses expected (front ++ [last] ++ [(Callee.roundFinished, now)]) =
          excesses expected (front ++ [last]) := by
      rw [excesses_concat]
      exact List.append_nil _
    refine ⟨h.expected_eq, ?_, ?_, fun _ => ?_, fun hnil => absurd hnil (by simp), htimes,
      hreaders'⟩
    · rw [List.getLast?_concat]
      rfl
    · rw [hsame]
      exact h.paused
    · rw [totals_append, htotals, List.append_nil, hsame]
      exact h.totals_eq (by simp)

theorem house_stalling (x : σ × StallSampler × Readings) :
    (around.stalling clock).house x = (around.house x.1, x.2) := by
  rw [Surroundings.house, Surroundings.house, Surroundings.stalling]
  cases around.housekeeping <;> rfl

theorem hear_stalling (x : σ × StallSampler × Readings) : (around.stalling clock).hear x =
    ((around.hear x.1).1, (around.hear x.1).2, x.2) := by
  rw [Surroundings.hear, Surroundings.hear, Surroundings.stalling]
  cases around.agent <;> rfl

/-- Every step of the monitor keeps the account. -/
theorem Measured.step {x : σ × StallSampler × Readings}
    (h : Measured expected clock phase x.2.1 x.2.2 es) :
    let y := m.step (around.stalling clock) phase x
    Measured expected clock y.1 y.2.2.1 y.2.2.2
      (es ++ m.stepEvents (around.stalling clock) phase x) := by
  cases phase with
  | starting => exact h.sample rfl rfl _
  | asleep last =>
    rw [Monitor.step, stepEvents]
    split
    · exact h.other (by simp) quiet_nil _
    · have hstate : (m.sampleRound (around.stalling clock) last x).2.2 =
          ((x.2.1.sample (clock x.2.2.length)).2,
            x.2.2 ++ [(Callee.sample, clock x.2.2.length)]) := by
        rw [sampleRound]
        dsimp only
        split <;> rfl
      intro y
      rw [show y.2.2 = _ from hstate]
      exact h.sample (totals_sample _ _) (readers_sample _ _) _
  | sampled last =>
    rw [step_sampled, house_stalling]
    exact h.other (by simp) quiet_house _
  | kept last =>
    rw [step_kept, hear_stalling]
    exact h.other (by simp) (quiet_life _) _
  | checked last => exact h.finish (by simp) rfl rfl _
  | ended exit => exact h.other (by simp) quiet_nil _

variable (m around) in
/-- Whatever happens to its surroundings, a run of the monitor keeps the account. -/
theorem measured_along {x : Phase × σ × StallSampler × Readings}
    (h : Measured expected clock x.1 x.2.2.1 x.2.2.2 es) (turns : List (Turn σ)) :
    ∃ es', m.along (around.stalling clock).noting ((turns.map Turn.stalling).map Turn.noting)
        (x.1, x.2, es) =
        (let y := m.along (around.stalling clock) (turns.map Turn.stalling) x
        (y.1, y.2, es')) ∧
      let y := m.along (around.stalling clock) (turns.map Turn.stalling) x
      Measured expected clock y.1 y.2.2.1 y.2.2.2 es' := by
  induction turns generalizing x es with
  | nil => exact ⟨es, rfl, h⟩
  | cons t turns ih =>
    rw [List.map_cons, List.map_cons, along, along, take_noting]
    cases t with
    | monitor => exact ih h.step
    | outside change =>
      have hsame : Measured expected clock x.1 x.2.2.1 x.2.2.2 (es ++ []) := by
        rwa [List.append_nil]
      exact ih (x := (x.1, change x.2.1, x.2.2)) hsame

/-! ## 5. Runs from the start -/

theorem pairwise_times {clock : Nat → Duration} (hclock : ∀ n, clock n ≤ clock (n + 1)) (n : Nat) :
    ((List.range n).map clock).Pairwise (· ≤ ·) := by
  have hmono : Monotone fun n => (clock n).nanos := monotone_nat_of_le_succ hclock
  rw [List.pairwise_map]
  exact List.pairwise_lt_range.imp fun hlt => hmono (Nat.le_of_lt hlt)

/-- However a run of the monitor goes and whoever changes its surroundings, on a clock that never
goes back: the samples have shown the running sums of what the waits exceeded the period by. What
was shown never decreases, and together with the rounds it fits between the first reading and the
last one, so that every sum can be counted if that time can. The pauses between the samples are
those excesses, they add up to what was shown from the first sample to the last one, and the monitor
warns of exactly the long ones. -/
theorem stalls_accounted {σ : Type} (m : Monitor) (around : Surroundings σ) (expected : Duration)
    {clock : Nat → Duration} (hclock : ∀ n, clock n ≤ clock (n + 1)) (turns : List (Turn σ)) (s : σ) :
    let x := m.along (around.stalling clock) (turns.map Turn.stalling)
      (.starting, s, .fresh expected, [])
    let readings := x.2.2.2
    ∃ es, m.along (around.stalling clock).noting ((turns.map Turn.stalling).map Turn.noting)
        (.starting, (s, .fresh expected, []), []) = (x.1, x.2, es) ∧
      readings.map Prod.fst = readers es ∧
      (∃ k, readers es <+:
        .sample :: (List.replicate k [Callee.sample, .roundFinished]).flatten) ∧
      readings.map Prod.snd = (List.range readings.length).map clock ∧
      (readings ≠ [] → totals es = (excesses expected readings).inits.map Duration.sum) ∧
      (totals es).Pairwise (· ≤ ·) ∧
      (∀ first ∈ readings.head?, ∀ last ∈ readings.getLast?,
        (∀ total ∈ totals es, total ≤ last.2 - first.2) ∧
        Duration.sum (excesses expected readings) + Duration.sum (rounds readings) ≤
          last.2 - first.2 ∧
        (last.2 - first.2 ≤ Duration.largest →
          ∀ before excess, before ++ [excess] <+: excesses expected readings →
            (Duration.sum before).checkedAdd excess = some (Duration.sum (before ++ [excess])))) ∧
      pauses (totals es) = excesses expected readings ∧
      (∀ first ∈ (totals es).head?, ∀ last ∈ (totals es).getLast?,
        Duration.sum (pauses (totals es)) = last - first) ∧
      entries es = m.warnings (totals es) := by
  intro x readings
  obtain ⟨es, hrun, hmeasured⟩ := measured_along m around
    (x := (.starting, s, .fresh expected, [])) (measured_start expected clock) turns
  have hstart : Tracks m (around.stalling clock) .starting [] 0 := .starting
  obtain ⟨es', hrun', htracks⟩ :=
    tracks_along (x := (.starting, s, .fresh expected, [])) hstart (turns.map Turn.stalling)
  obtain rfl : es = es' := congrArg (·.2.2) (hrun.symm.trans hrun')
  have htimes : (readings.map Prod.snd).Pairwise (· ≤ ·) := by
    rw [hmeasured.times]
    exact pairwise_times hclock _
  have hpairwise := hmeasured.pairwise_totals
  refine ⟨es, hrun, hmeasured.readers_eq, htracks.shows.2, hmeasured.times, hmeasured.totals_eq,
    hpairwise, ?_, hmeasured.pauses_totals,
    fun first hfirst last hlast => sum_pauses hpairwise hfirst hlast, htracks.shows.1⟩
  intro first hfirst last hlast
  refine ⟨fun total htotal => ?_, sum_excesses_add_sum_rounds_le expected htimes hfirst hlast,
    fun hlargest before excess hbefore => ?_⟩
  · obtain ⟨front, hfront, rfl⟩ := hmeasured.exists_front htotal
    exact sum_front_excesses_le htimes hfirst hlast hfront
  · have hfits : Duration.sum before + excess ≤ Duration.largest := by
      rw [← Duration.sum_concat]
      exact Nat.le_trans (sum_front_excesses_le htimes hfirst hlast hbefore) hlargest
    rw [Duration.sum_concat, Duration.checkedAdd, if_pos hfits]

/-- Readings that lie ever further apart: the waits before the second and the third round are too
long by four and by eight seconds. -/
theorem stalls_accounted_squares :
    let clock : Nat → Duration := fun n => .ofSecs (n * n)
    let around : Surroundings Unit :=
      ⟨fun _ => false, fun s => (.zero, s), none, none, id, fun _ s => s⟩
    let turns : List (Turn Unit) := List.replicate 13 .monitor
    let x := Monitor.along ⟨.ofSecs 1, .ofSecs 3⟩ (around.stalling clock).noting
      ((turns.map Turn.stalling).map Turn.noting) (.starting, ((), .fresh (.ofSecs 1), []), [])
    (∀ n, clock n ≤ clock (n + 1)) ∧
      totals x.2.2 = [.zero, .zero, .ofSecs 4, .ofSecs 12] ∧
      Duration.sum (pauses (totals x.2.2)) = .ofSecs 12 ∧
      entries x.2.2 = [pauseEntry (.ofSecs 4) (.ofSecs 3), pauseEntry (.ofSecs 8) (.ofSecs 3)] := by
  intro clock around turns x
  have hclock : ∀ n, clock n ≤ clock (n + 1) := fun n =>
    Nat.mul_le_mul_right _ (Nat.mul_le_mul n.le_succ n.le_succ)
  obtain ⟨es, hrun, -, -, -, htotals, -, -, -, hsum, hentries⟩ :=
    stalls_accounted ⟨.ofSecs 1, .ofSecs 3⟩ around (.ofSecs 1) hclock turns ()
  have hes : x.2.2 = es := congrArg (fun y => y.2.2) hrun
  have htotals : totals es = [.zero, .zero, .ofSecs 4, .ofSecs 12] :=
    (htotals (by decide)).trans (by decide)
  rw [htotals] at hsum hentries
  rw [hes, htotals]
  exact ⟨hclock, rfl, hsum .zero rfl (.ofSecs 12) rfl, hentries.trans (by decide)⟩

end Monitor

end SupervisedWorker
