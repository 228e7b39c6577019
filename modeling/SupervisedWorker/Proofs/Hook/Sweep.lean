import SupervisedWorker.Proofs.Hook.Deeds

/-!
# No hook gets in the way of another

Whatever happens between the steps of a sweep, it comes to its end, and what it records about a hook
depends on that hook alone.

Results:
1. `tracks_play`: after any turns a sweep has done to its hooks what it is to do; and where nobody else
   has changed the state and no hook was called late, it is as far as the sweep in one piece has come.
2. `alike_play`: answers that come late change nothing that the sweep looks at.
3. `hooks_are_isolated`: all of it about a sweep that is over.
-/

namespace SupervisedWorker

namespace Sweep

variable {α σ : Type} (around : Surroundings α σ) (call : Call α σ) {limit : Duration}
  {hooks : List (Hook α)} {p q : Progress α} {log : Log α} {done : List (Handed α)}

/-! ## 1. The sweep in one piece -/

/-- Where a sweep stands that began in the state `s₀`, if it is as far as the sweep in one piece has
come by then. -/
inductive Foretold (around : Surroundings α σ) (call : Call α σ) (limit : Duration) (s₀ : σ)
    (p : Progress α) (s : σ) (done : List (Handed α)) : Option (Handed α) → Prop
  | idle :
      handAll around call limit .first (done.map Handed.start) s₀ = (p.records, p.worker, s) →
      Foretold around call limit s₀ p s done none
  | handed {c : Handed α} :
      handAll around call limit .first (done.map Handed.start) s₀ = (p.records, p.worker, s) →
      c.worker = p.worker → c.begun = none → Foretold around call limit s₀ p s done (some c)
  | running {w : HookThread} {s' : σ} {c : Handed α} {delay : Duration} {reply : Reply} :
      handAll around call limit .first (done.map Handed.start) s₀ = (p.records, w, s') →
      delay ≤ limit → call w c.hook s' = (reply, s) → c.begun = some (delay, reply) →
      p.worker = { w with slot := ((reply.delayed delay).box limit).2 } →
      Foretold around call limit s₀ p s done (some c)

theorem handAll_append (limit : Duration) (w : HookThread) (hooks hooks' : List (Hook α × Start))
    (s : σ) : handAll around call limit w (hooks ++ hooks') s =
      let x := handAll around call limit w hooks s
      let y := handAll around call limit x.2.1 hooks' x.2.2
      (x.1 ++ y.1, y.2) := by
  induction hooks generalizing w s with
  | nil => rfl
  | cons h hooks ih =>
    obtain ⟨h, start⟩ := h
    simp only [List.cons_append, handAll, ih]

theorem foretold_start (started : Timestamp) (limit : Duration) (hooks : List (Hook α)) (s : σ) :
    Foretold around call limit s (.start started limit hooks) s [] none := .idle rfl

section

variable {around call} {s₀ s : σ}

theorem Foretold.hand (hf : Foretold around call limit s₀ p s done none) {h : Hook α}
    {rest : List (Hook α)} (hc : p.current = none) (hw : p.waiting = h :: rest) :
    Foretold around call limit s₀ (p.step around s).1 (p.step around s).2 done
      (some ⟨p.worker, h, none⟩) := by
  rw [Progress.step_hand hc hw]
  cases hf with
  | idle hall => exact .handed hall rfl rfl

theorem Foretold.settle {c : Handed α} (hf : Foretold around call limit s₀ p s done (some c))
    (ht : Tracks limit hooks p log done (some c)) :
    Foretold around call limit s₀ (p.step around s).1 (p.step around s).2 (done ++ [c]) none := by
  have hbox : p.box p.records.length = c.box limit := by
    rw [ht.records, List.length_map]
    exact ht.box c rfl
  rw [Progress.step_settle ht.current, hbox, ht.limit_eq]
  refine .idle ?_
  rw [List.map_append, handAll_append]
  cases hf with
  | handed hall hworker hbegun =>
    rw [hall]
    simp [handAll, handOne, Handed.start, Handed.box, Handed.waited, Handed.reply, hbegun]
  | running hall hdelay hcall hbegun hworker =>
    rw [hall]
    simp [handAll, handOne, Handed.start, Handed.box, Handed.waited, Handed.reply, hbegun, hdelay,
      Option.filter, hcall, hworker]

theorem Foretold.begin {w : HookThread} {h : Hook α}
    (hf : Foretold around call limit s₀ p s done (some ⟨w, h, none⟩)) (hlimit : p.limit = limit)
    (hook : Nat) {delay : Duration} (hdelay : delay ≤ p.limit) :
    let x := call w h s
    Foretold around call limit s₀ (p.answered hook h (x.1.delayed delay)) x.2 done
      (some ⟨w, h, some (delay, x.1)⟩) := by
  cases hf with
  | handed hall hworker hbegun =>
    cases hworker
    subst hlimit
    exact .running hall hdelay rfl rfl rfl
  | running _ _ _ hbegun _ => cases hbegun

theorem Foretold.deliver {last : Option (Handed α)}
    (hf : Foretold around call limit s₀ p s done last) {hook : Nat} {outcome : Outcome}
    (h : p.deliver hook outcome = some q) : Foretold around call limit s₀ q s done last := by
  obtain ⟨_, rfl⟩ := Progress.deliver_eq h
  cases hf with
  | idle hall => exact .idle hall
  | handed hall hworker hbegun => exact .handed hall hworker hbegun
  | running hall hdelay hcall hbegun hworker => exact .running hall hdelay hcall hbegun hworker

end

/-- One turn takes a sweep on. If it neither changes the state from outside nor calls a hook late,
the sweep stays as far as the sweep in one piece. -/
def GoesOn (around : Surroundings α σ) (call : Call α σ) (limit : Duration)
    (hooks : List (Hook α)) (p : Progress α) (s : σ) (log : Log α) (done : List (Handed α))
    (last : Option (Handed α)) (t : Turn σ) : Prop :=
  let x := t.take around call (p, s)
  ∃ done' last', Tracks limit hooks x.1 (log ++ t.log call p s) done' last' ∧
    stepsOf done' last' =
      min (stepsOf done last + if t.isSweep then 1 else 0) (2 * hooks.length) ∧
    (t.isOutside = false → (t.log call p s).late = [] → ∀ s₀,
      Foretold around call limit s₀ p s done last →
        Foretold around call limit s₀ x.1 x.2 done' last')

theorem Tracks.goesOn_sweep {last : Option (Handed α)} (ht : Tracks limit hooks p log done last)
    (s : σ) : GoesOn around call limit hooks p s log done last .sweep := by
  have hlen := ht.hooks_length
  cases last with
  | some c =>
    refine ⟨_, none, ht.settle around call s, ?_, fun _ _ s₀ hf => hf.settle ht⟩
    simp [stepsOf, Turn.isSweep] at hlen ⊢
    omega
  | none =>
    have hlog : (Turn.sweep : Turn σ).log call p s = [] := by
      simp only [Turn.log, ht.current, Option.map_none]
    rw [GoesOn, hlog, List.append_nil, Turn.take]
    rcases hw : p.waiting with _ | ⟨h, rest⟩
    · rw [Progress.step_over ht.current hw]
      refine ⟨done, none, ht, ?_, fun _ _ s₀ hf => hf⟩
      simp [stepsOf, hw, Turn.isSweep] at hlen ⊢
      omega
    · refine ⟨done, _, ht.hand around hw s, ?_, fun _ _ s₀ hf => hf.hand ht.current hw⟩
      simp [stepsOf, hw, Turn.isSweep] at hlen ⊢
      omega

theorem Tracks.goesOn_begin {last : Option (Handed α)} (ht : Tracks limit hooks p log done last)
    (hook : Nat) (delay : Duration) (s : σ) :
    GoesOn around call limit hooks p s log done last (.begin hook delay) := by
  have hsteps := ht.steps_le
  rcases hb : p.begin call hook delay s with _ | ⟨q, s'⟩
  · have hlog : (Turn.begin hook delay : Turn σ).log call p s = [] := by
      simp only [Turn.log, hb]
      cases p.job? hook <;> rfl
    have htake : (Turn.begin hook delay).take around call (p, s) = (p, s) := by
      simp only [Turn.take, hb, Option.getD_none]
    rw [GoesOn, hlog, htake, List.append_nil]
    exact ⟨done, last, ht, by simp [Turn.isSweep, hsteps], fun _ _ s₀ hf => hf⟩
  have htake : (Turn.begin hook delay).take around call (p, s) = (q, s') := by
    simp only [Turn.take, hb, Option.getD_some]
  rw [GoesOn, htake]
  obtain ⟨w, h, hjob, rfl, ⟨hlate, rfl⟩ | ⟨hwait, hdelay, rfl⟩⟩ := Progress.begin_cases hb
  · have hlog : (Turn.begin hook delay : Turn σ).log call p s =
        [.inr ⟨hook, w, h, (call w h s).1⟩] := by
      simp only [Turn.log, hb, hjob, hlate, if_true]
    rw [hlog]
    refine ⟨done, last, ht.forsake hjob hlate _, by simp [Turn.isSweep, hsteps], ?_⟩
    intro _ hnone
    cases hnone
  · have hlog : (Turn.begin hook delay : Turn σ).log call p s =
        [.inl (.called w h (call w h s).1)] := by
      simp only [Turn.log, hb, hjob, Nat.not_lt.mpr hwait, if_false]
    rw [hlog]
    obtain ⟨rfl, ht'⟩ := ht.begin hjob hwait hdelay (call w h s).1
    refine ⟨done, _, ht', ?_, fun _ _ s₀ hf => hf.begin ht.limit_eq hook hdelay⟩
    simpa [Turn.isSweep, stepsOf] using (Nat.min_eq_left hsteps).symm

theorem Tracks.goesOn {last : Option (Handed α)} (ht : Tracks limit hooks p log done last)
    (t : Turn σ) (s : σ) : GoesOn around call limit hooks p s log done last t := by
  have hsteps := ht.steps_le
  cases t with
  | sweep => exact ht.goesOn_sweep around call s
  | begin hook delay => exact ht.goesOn_begin around call hook delay s
  | answer hook outcome =>
    rw [GoesOn, Turn.take, Turn.log, List.append_nil]
    cases hq : p.deliver hook outcome with
    | none => exact ⟨done, last, ht, by simp [Turn.isSweep, hsteps], fun _ _ s₀ hf => hf⟩
    | some q =>
      exact ⟨done, last, ht.answer hq, by simp [Turn.isSweep, hsteps],
        fun _ _ s₀ hf => hf.deliver hq⟩
  | outside change =>
    rw [GoesOn, Turn.take, Turn.log, List.append_nil]
    refine ⟨done, last, ht, by simp [Turn.isSweep, hsteps], ?_⟩
    intro hinside
    cases hinside

/-- Whatever happens, the sweep hands over its hooks in order, cancels what overruns, and needs two
steps for every hook. Without late calls and without changes from outside it comes as far as the
sweep in one piece. -/
theorem tracks_play {last : Option (Handed α)} (ht : Tracks limit hooks p log done last)
    (turns : List (Turn σ)) (s : σ) :
    let x := play around call turns (p, s)
    ∃ log' done' last',
      play around.noting (noting call) (turns.map Turn.noting) (p, s, log.all) =
        (x.1, x.2, (log ++ log').all) ∧
      Tracks limit hooks x.1 (log ++ log') done' last' ∧
      stepsOf done' last' =
        min (stepsOf done last + turns.countP Turn.isSweep) (2 * hooks.length) ∧
      (turns.any Turn.isOutside = false → Log.late log' = [] → ∀ s₀,
        Foretold around call limit s₀ p s done last →
          Foretold around call limit s₀ x.1 x.2 done' last') := by
  induction turns generalizing p s log done last with
  | nil =>
    exact ⟨[], done, last, by simp [play], by simpa [play] using ht, by simp [ht.steps_le],
      fun _ _ s₀ hf => hf⟩
  | cons t turns ih =>
    obtain ⟨done₁, last₁, ht₁, hsteps₁, hf₁⟩ := ht.goesOn around call t s
    obtain ⟨log', done', last', hplay, ht', hsteps, hf'⟩ :=
      ih ht₁ (t.take around call (p, s)).2
    refine ⟨t.log call p s ++ log', done', last', ?_, ?_, ?_, ?_⟩
    · rw [List.map_cons, play, take_noting, ← List.append_assoc, ← Log.all_append]
      exact hplay
    · rwa [← List.append_assoc]
    · rw [hsteps, hsteps₁, List.countP_cons]
      omega
    · intro hinside hlate s₀ hf
      rw [List.any_cons, Bool.or_eq_false_iff] at hinside
      rw [Log.late_append, List.append_eq_nil_iff] at hlate
      exact hf' hinside.2 hlate.2 s₀ (hf₁ hinside.1 hlate.1 s₀ hf)

/-- A sweep is over exactly after two steps for every hook. -/
theorem Tracks.isOver_iff {last : Option (Handed α)} (ht : Tracks limit hooks p log done last) :
    p.isOver = true ↔ stepsOf done last = 2 * hooks.length := by
  have hlen := ht.hooks_length
  have hnone : p.current = none ↔ last.toList.length = 0 := by
    rw [ht.current]
    cases last <;> simp
  rw [Progress.isOver_iff, hnone, stepsOf, ← List.length_eq_zero_iff]
  omega

/-- Whatever happens, a sweep is over after two steps for every hook, and not before. -/
theorem isOver_play (started : Timestamp) (limit : Duration) (hooks : List (Hook α))
    (turns : List (Turn σ)) (s : σ) :
    (play around call turns (.start started limit hooks, s)).1.isOver = true ↔
      2 * hooks.length ≤ turns.countP Turn.isSweep := by
  obtain ⟨_, _, _, _, ht, hsteps, _⟩ :=
    tracks_play around call (tracks_start started limit hooks) turns s
  rw [ht.isOver_iff, hsteps]
  simp only [stepsOf, List.length_nil, Option.toList_none]
  omega

/-- The account of a sweep that is over: to which worker each hook was handed, what was done to it
while the sweep waited for it, which hooks were called later, and which are still queued. -/
structure Account (limit : Duration) (hooks : List (Hook α)) (handed : List (Handed α))
    (log : Log α) (queued : List (Option (HookThread × Hook α))) : Prop where
  hooks_eq : handed.map Handed.hook = hooks
  names : ∀ n c, handed[n]? = some c →
    c.worker.name = s!"shutdown-hook-worker-{1 + overruns limit (handed.take n)}"
  delays : ∀ c ∈ handed, ∀ x ∈ c.begun, x.1 ≤ limit
  inWait : log.inWait = handed.flatMap (Handed.deeds limit)
  /-- Only a hook that no thread started on in time is called late, by the worker that it was handed
  to. -/
  late : ∀ l ∈ log.late, ∃ c, handed[l.number]? = some c ∧ c.begun = none ∧
    l.worker = c.worker ∧ l.hook = c.hook
  once : (log.late.map LateCall.number).Nodup
  /-- What no thread started on, in time or late, is still queued. -/
  job : ∀ n x, queued[n]?.join = some x ↔ ∃ c, handed[n]? = some c ∧ c.begun = none ∧
    n ∉ log.late.map LateCall.number ∧ x = c.job

theorem Tracks.over {last : Option (Handed α)} (ht : Tracks limit hooks p log done last)
    (h : p.isOver = true) : last = none ∧ Account limit hooks done log p.queued := by
  obtain ⟨hwaiting, hcurrent⟩ := Progress.isOver_iff.mp h
  obtain rfl : last = none := by
    rw [ht.current] at hcurrent
    simpa using hcurrent
  refine ⟨rfl, ⟨by simpa [hwaiting] using ht.order, ?_, by simpa using ht.delays,
    by simpa using ht.inWait, ht.late, ht.once, by simpa [Progress.job?] using ht.job⟩⟩
  intro n c hn
  have hnumber := ht.numbers n c (by simpa using hn)
  exact congrArg (fun number => s!"shutdown-hook-worker-{number}") hnumber

/-- When a sweep is over, a thread that starts on a hook has been left alone. -/
theorem Tracks.begin_over {last : Option (Handed α)} (ht : Tracks limit hooks p log done last)
    (hover : p.isOver = true) {hook : Nat} {delay : Duration} {s s' : σ}
    (hb : p.begin call hook delay s = some (q, s')) : q = p.forsaken hook := by
  obtain ⟨rfl, _⟩ := ht.over hover
  obtain ⟨w, h, hjob, _, ⟨_, rfl⟩ | ⟨hwait, _, _⟩⟩ := Progress.begin_cases hb
  · rfl
  · obtain ⟨c, hc, _⟩ := (ht.job hook (w, h)).mp hjob
    have hlt := (List.getElem?_eq_some_iff.mp hc).1
    rw [ht.records, List.length_map] at hwait
    rw [Option.toList_none, List.append_nil] at hlt
    exact absurd hlt (Nat.not_lt.mpr hwait)

theorem Foretold.over {s₀ s : σ} (hf : Foretold around call limit s₀ p s done none) :
    Sweep.run around call limit (done.map Handed.start) s₀ = (report limit p.records, s) := by
  cases hf with
  | idle hall => rw [Sweep.run, hall]

/-- The turns of a sweep in one piece, from the hook with the given number on. -/
def turnsOf (limit : Duration) : (number : Nat) → List (Hook α × Start) → List (Turn σ)
  | _, [] => []
  | number, (_, start) :: rest =>
    .sweep :: (start.filter (· ≤ limit)).toList.map (.begin number) ++
      .sweep :: turnsOf limit (number + 1) rest

theorem play_append (turns turns' : List (Turn σ)) (x : Progress α × σ) :
    play around call (turns ++ turns') x = play around call turns' (play around call turns x) := by
  induction turns generalizing x with
  | nil => rfl
  | cons t turns ih => exact ih _

/-- The turns of one hook do what the sweep in one piece does with it. -/
theorem play_one {p : Progress α} {h : Hook α} {rest : List (Hook α)} (hc : p.current = none)
    (hw : p.waiting = h :: rest) (hboxes : p.boxes.length = p.records.length)
    (hqueued : p.queued.length = p.records.length) (start : Start) (s : σ) :
    ∃ boxes queued, boxes.length = p.records.length + 1 ∧ queued.length = p.records.length + 1 ∧
      play around call (.sweep :: (start.filter (· ≤ p.limit)).toList.map
          (.begin p.records.length) ++ [.sweep]) (p, s) =
        let x := handOne around call p.limit p.worker h start s
        ({ p with
            worker := x.2.1, waiting := rest, current := none, boxes, queued
            records := p.records ++ [x.1] }, x.2.2) := by
  obtain ⟨started, limit, worker, waiting, current, boxes, queued, records⟩ := p
  cases hc
  cases hw
  simp only at hboxes hqueued
  rw [handOne]
  cases hdelay : start.filter (· ≤ limit) with
  | none =>
    refine ⟨boxes ++ [none], queued ++ [some (worker, h)], by simp [hboxes], by simp [hqueued], ?_⟩
    simp [play, Turn.take, Progress.step, Progress.box, ← hboxes]
  | some delay =>
    have hle : delay ≤ limit := by
      rw [Option.filter_eq_some_iff] at hdelay
      simpa using hdelay.2
    let reply := (call worker h s).1.delayed delay
    let p : Progress α := ⟨started, limit, worker, rest, some (h, limit), boxes ++ [none],
      queued ++ [some (worker, h)], records⟩
    have hjob : p.job? records.length = some (worker, h) := by
      simp [p, Progress.job?, ← hqueued]
    have hbegin : p.begin call records.length delay s =
        some (p.answered records.length h reply, (call worker h s).2) :=
      Progress.begin_wait hjob (Nat.le_refl _) hle s
    refine ⟨boxes ++ [(reply.box limit).1], queued ++ [none], by simp [hboxes], by simp [hqueued], ?_⟩
    have hhand : (Turn.sweep : Turn σ).take around call
        (⟨started, limit, worker, h :: rest, none, boxes, queued, records⟩, s) = (p, s) := rfl
    have htake : (Turn.begin records.length delay).take around call (p, s) =
        (p.answered records.length h reply, (call worker h s).2) := by
      rw [Turn.take, hbegin, Option.getD_some]
    simp only [Option.toList_some, List.map_cons, List.map_nil, List.cons_append, List.nil_append,
      play, hhand, htake]
    have hcurrent : (p.answered records.length h reply).current =
        some (h, reply.waited limit) := rfl
    have hbox : (p.answered records.length h reply).box records.length = (reply.box limit).1 := by
      simp [p, Progress.answered, Progress.box, ← hboxes]
    rw [Turn.take, Progress.step_settle hcurrent]
    have hsame : (p.answered records.length h reply).records = records := rfl
    have hset : (boxes ++ [none]).set records.length (reply.box limit).1 =
        boxes ++ [(reply.box limit).1] := by
      simp [← hboxes]
    have hunset : (queued ++ [some (worker, h)]).set records.length none = queued ++ [none] := by
      simp [← hqueued]
    rw [hsame, hbox]
    simp only [p, Progress.answered, hset, hunset]
    rfl

theorem play_turnsOf {p : Progress α} (hc : p.current = none) {hooks : List (Hook α × Start)}
    (hw : p.waiting = hooks.map Prod.fst) (hboxes : p.boxes.length = p.records.length)
    (hqueued : p.queued.length = p.records.length) (s : σ) :
    let x := play around call (turnsOf p.limit p.records.length hooks) (p, s)
    let y := handAll around call p.limit p.worker hooks s
    x.1.isOver = true ∧ x.1.records = p.records ++ y.1 ∧ x.2 = y.2.2 := by
  induction hooks generalizing p s with
  | nil => simp [turnsOf, play, handAll, Progress.isOver, hc, hw]
  | cons x hooks ih =>
    obtain ⟨h, start⟩ := x
    obtain ⟨boxes, queued, hboxes', hqueued', hplay⟩ :=
      play_one around call hc hw hboxes hqueued start s
    have hturns : (turnsOf p.limit p.records.length ((h, start) :: hooks) : List (Turn σ)) =
        (.sweep :: (start.filter (· ≤ p.limit)).toList.map (.begin p.records.length) ++ [.sweep]) ++
          turnsOf p.limit (p.records.length + 1) hooks := by
      simp [turnsOf]
    rw [hturns, play_append, hplay, handAll]
    let y := handOne around call p.limit p.worker h start s
    let q : Progress α :=
      { p with
        worker := y.2.1, waiting := hooks.map Prod.fst, current := none, boxes, queued
        records := p.records ++ [y.1] }
    have hlen : q.records.length = p.records.length + 1 := by simp [q]
    have hrest := ih (p := q) rfl rfl (by rw [hlen]; exact hboxes') (by rw [hlen]; exact hqueued')
      y.2.2
    rw [hlen] at hrest
    refine ⟨hrest.1, hrest.2.1.trans ?_, hrest.2.2⟩
    exact List.append_assoc ..

/-- Every sweep in one piece is a sweep in steps. -/
theorem run_eq_play (started : Timestamp) (limit : Duration) (hooks : List (Hook α × Start))
    (s : σ) :
    let x := play around call (turnsOf limit 0 hooks)
      (.start started limit (hooks.map Prod.fst), s)
    x.1.isOver = true ∧ Sweep.run around call limit hooks s = (report limit x.1.records, x.2) := by
  obtain ⟨hover, hrecords, hstate⟩ := play_turnsOf around call
    (p := .start started limit (hooks.map Prod.fst)) rfl rfl rfl rfl s
  refine ⟨hover, ?_⟩
  rw [Sweep.run]
  exact Prod.ext (congrArg (report limit) hrecords.symm) hstate.symm

/-! ## 2. Late answers -/

/-- Whether every hook that was handed over has a box and a place in a queue. -/
structure Progress.IsBoxed (p : Progress α) : Prop where
  boxes : p.boxes.length = p.records.length + p.current.toList.length
  queued : p.queued.length = p.boxes.length

/-- Two sweeps that differ at most in the boxes of hooks that they are done with. -/
structure Alike (p q : Progress α) : Prop where
  boxed : p.IsBoxed
  rest : q = { p with boxes := q.boxes }
  boxes : q.boxes.length = p.boxes.length
  box : q.box p.records.length = p.box p.records.length

theorem Alike.refl {p : Progress α} (h : p.IsBoxed) : Alike p p := ⟨h, rfl, rfl, rfl⟩

theorem alike_step {p q : Progress α} (h : Alike p q) (s : σ) :
    Alike (p.step around s).1 (q.step around s).1 ∧
      (q.step around s).2 = (p.step around s).2 := by
  obtain ⟨⟨hp, hqueued⟩, hrest, hboxes, hbox⟩ := h
  obtain ⟨started, limit, worker, waiting, current, boxes, queued, records⟩ := p
  obtain ⟨_, _, _, _, _, boxes', _, _⟩ := q
  cases hrest
  simp only at hp hqueued hboxes hbox
  cases current with
  | some current =>
    -- Both look into the one box in which they cannot differ.
    simp only [Progress.step, hbox]
    exact ⟨⟨⟨by simpa using hp, hqueued⟩, rfl, hboxes, by simp [Progress.box, hboxes, hp]⟩, trivial⟩
  | none =>
    have hlen : records.length = boxes.length := by simpa using hp.symm
    cases waiting with
    | nil => exact ⟨⟨⟨hp, hqueued⟩, rfl, hboxes, hbox⟩, rfl⟩
    | cons h rest =>
      simp only [Progress.step]
      exact ⟨⟨⟨by simpa using hp, by simpa using hqueued⟩, rfl, by simp [hboxes],
        by simp [Progress.box, hlen, ← hboxes]⟩, trivial⟩

theorem alike_answer {p q : Progress α} (h : Alike p q) (hook : Nat) (outcome : Outcome) :
    Alike ((p.deliver hook outcome).getD p) q := by
  cases hd : p.deliver hook outcome with
  | none => exact h
  | some p' =>
    obtain ⟨hlt, rfl⟩ := Progress.deliver_eq hd
    refine ⟨⟨by simpa using h.boxed.boxes, by simpa using h.boxed.queued⟩, h.rest,
      by simpa using h.boxes, ?_⟩
    rw [Option.getD_some, h.box, Progress.box, Progress.box,
      List.getElem?_set_ne (Nat.ne_of_lt hlt)]

theorem alike_begin {p q : Progress α} (h : Alike p q) (hook : Nat) (delay : Duration) (s : σ) :
    let x := (p.begin call hook delay s).getD (p, s)
    let y := (q.begin call hook delay s).getD (q, s)
    Alike x.1 y.1 ∧ y.2 = x.2 := by
  obtain ⟨⟨hp, hqueued⟩, hrest, hboxes, hbox⟩ := h
  obtain ⟨started, limit, worker, waiting, current, boxes, queued, records⟩ := p
  obtain ⟨_, _, _, _, _, boxes', _, _⟩ := q
  cases hrest
  simp only at hp hqueued hboxes hbox
  simp only [Progress.begin, Progress.job?]
  rcases hjob : queued[hook]?.join with _ | ⟨w, h⟩
  · exact ⟨⟨⟨hp, hqueued⟩, rfl, hboxes, hbox⟩, rfl⟩
  by_cases hlate : hook < records.length
  · simp only [hlate, if_true, Option.getD_some, Progress.forsaken]
    exact ⟨⟨⟨hp, by simpa using hqueued⟩, rfl, hboxes, hbox⟩, trivial⟩
  by_cases hdelay : delay ≤ limit
  · -- The thread answers into the one box in which they cannot differ.
    have hlt : hook < boxes.length := by
      rw [← hqueued]
      rw [Option.join_eq_some_iff] at hjob
      exact (List.getElem?_eq_some_iff.mp hjob).1
    obtain ⟨current, rfl⟩ : ∃ c, current = some c := by
      cases current with
      | some c => exact ⟨c, rfl⟩
      | none =>
        simp only [Option.toList_none, List.length_nil] at hp
        omega
    have hhook : hook = records.length := by
      simp only [Option.toList_some, List.length_singleton] at hp
      omega
    simp only [hlate, if_false, hdelay, if_true, Option.getD_some, Progress.answered]
    refine ⟨⟨⟨by simpa using hp, by simpa using hqueued⟩, rfl, by simpa using hboxes, ?_⟩, trivial⟩
    simp [Progress.box, hboxes, ← hhook, hlt]
  · simp only [hlate, if_false, hdelay, Option.getD_none]
    exact ⟨⟨⟨hp, hqueued⟩, rfl, hboxes, hbox⟩, trivial⟩

theorem Progress.IsBoxed.step {p : Progress α} (h : p.IsBoxed) (s : σ) :
    (p.step around s).1.IsBoxed :=
  (alike_step around (.refl h) s).1.boxed

theorem Progress.IsBoxed.begin {p q : Progress α} (h : p.IsBoxed) {hook : Nat} {delay : Duration}
    {s s' : σ} (hb : p.begin call hook delay s = some (q, s')) : q.IsBoxed := by
  have hboxed := (alike_begin call (.refl h) hook delay s).1.boxed
  rwa [hb] at hboxed

theorem Progress.IsBoxed.deliver {p q : Progress α} (h : p.IsBoxed) {hook : Nat}
    {outcome : Outcome} (hd : p.deliver hook outcome = some q) : q.IsBoxed := by
  have hboxed := (alike_answer (.refl h) hook outcome).boxed
  rwa [hd] at hboxed

/-- A hook that lies in its queue and is not done with is the one that the sweep waits for. -/
theorem Progress.IsBoxed.current_isSome {p : Progress α} (h : p.IsBoxed) {hook : Nat}
    {job : HookThread × Hook α} (hjob : p.job? hook = some job) (hwait : p.records.length ≤ hook) :
    p.current.isSome = true := by
  have hlt := (List.getElem?_eq_some_iff.mp (Option.join_eq_some_iff.mp hjob)).1
  rw [h.queued, h.boxes] at hlt
  cases hcurrent : p.current with
  | some _ => rfl
  | none =>
    rw [hcurrent] at hlt
    exact absurd hlt (Nat.not_lt.mpr hwait)

/-- Without the late answers, all that the sweep looks at is the same. -/
theorem alike_play {p q : Progress α} (h : Alike p q) (turns : List (Turn σ)) (s : σ) :
    let x := play around call turns (p, s)
    let y := play around call (turns.filter fun t => !t.isAnswer) (q, s)
    Alike x.1 y.1 ∧ y.2 = x.2 := by
  induction turns generalizing p q s with
  | nil => exact ⟨h, rfl⟩
  | cons t turns ih =>
    cases t with
    | sweep =>
      obtain ⟨hstep, hstate⟩ := alike_step around h s
      have hq : q.step around s = ((q.step around s).1, (p.step around s).2) :=
        Prod.ext rfl hstate
      rw [List.filter_cons_of_pos rfl, play, play, Turn.take, Turn.take, hq]
      exact ih hstep (p.step around s).2
    | begin hook delay =>
      obtain ⟨hbegin, hstate⟩ := alike_begin call h hook delay s
      have hq : (q.begin call hook delay s).getD (q, s) =
          (((q.begin call hook delay s).getD (q, s)).1,
            ((p.begin call hook delay s).getD (p, s)).2) :=
        Prod.ext rfl hstate
      rw [List.filter_cons_of_pos rfl, play, play, Turn.take, Turn.take, hq]
      exact ih hbegin _
    | answer hook outcome => exact ih (alike_answer h hook outcome) s
    | outside change => exact ih h (change s)

theorem isBoxed_start (started : Timestamp) (limit : Duration) (hooks : List (Hook α)) :
    (Progress.start started limit hooks).IsBoxed := ⟨rfl, rfl⟩

/-! ## 3. Sweeps that are over -/

theorem Log.all_eq_inWait {log : Log α} (h : log.late = []) : log.all = log.inWait := by
  induction log with
  | nil => rfl
  | cons d log ih =>
    cases d with
    | inl d => exact congrArg (d :: ·) (ih h)
    | inr c => cases h

theorem Handed.call?_deeds (limit : Duration) (c : Handed α) :
    (c.deeds limit).filterMap Deed.call? = if c.begun.isSome then [c.job] else [] := by
  have hcalls : c.calls.filterMap Deed.call? = if c.begun.isSome then [c.job] else [] := by
    rw [Handed.calls]
    cases c.begun <;> rfl
  rw [Handed.deeds, List.filterMap_append, hcalls]
  cases c.overran limit <;> exact List.append_nil _

/-- The hooks on which the threads started in time were called in the given order. -/
theorem Handed.calls_inWait (limit : Duration) (handed : List (Handed α)) :
    (handed.flatMap (Handed.deeds limit)).filterMap Deed.call? =
      (handed.filter (·.begun.isSome)).map Handed.job := by
  induction handed with
  | nil => rfl
  | cons c handed ih =>
    rw [List.flatMap_cons, List.filterMap_append, Handed.call?_deeds, ih, List.filter_cons]
    cases c.begun.isSome <;> rfl

/-- If every thread started on its hook in time, the hooks were called in the given order, each of
them once, and no other. -/
theorem Account.calls_eq {handed : List (Handed α)}
    {queued : List (Option (HookThread × Hook α))} (ha : Account limit hooks handed log queued)
    (hall : ∀ c ∈ handed, c.begun.isSome) : log.calls = handed.map Handed.job := by
  have hlate : log.late = [] := by
    refine List.eq_nil_iff_forall_not_mem.mpr fun l hl => ?_
    obtain ⟨c, hc, hbegun, _⟩ := ha.late l hl
    have hsome := hall c (List.mem_of_getElem? hc)
    rw [hbegun] at hsome
    cases hsome
  rw [Log.calls, Log.all_eq_inWait hlate, ha.inWait, Handed.calls_inWait,
    List.filter_eq_self.mpr hall]

theorem Log.calls_perm (log : Log α) :
    log.calls.Perm (log.inWait.filterMap Deed.call? ++ log.late.map LateCall.job) := by
  induction log with
  | nil => exact .nil
  | cons d log ih =>
    cases d with
    | inl d =>
      rw [show Sum.inl d :: log = [.inl d] ++ log from rfl, calls_append, inWait_append, late_append,
        inWait_inl, late_inl, List.filterMap_append, List.nil_append, List.append_assoc]
      exact .append_left _ ih
    | inr c => exact (ih.cons c.job).trans List.perm_middle.symm

/-- The late calls are of the hooks that no thread started on in time, when none of these is queued
any more. -/
theorem Account.late_perm {handed : List (Handed α)}
    {queued : List (Option (HookThread × Hook α))} (ha : Account limit hooks handed log queued)
    (hstarted : ∀ job ∈ queued, job = none) :
    (log.late.map LateCall.job).Perm
      ((handed.filter fun c => !c.begun.isSome).map Handed.job) := by
  let missed := handed.zipIdx.filter fun x => !x.1.begun.isSome
  have hmissed : ∀ n, n ∈ missed.map Prod.snd ↔ ∃ c, handed[n]? = some c ∧ c.begun = none := by
    intro n
    simp [missed, List.mem_zipIdx_iff_getElem?]
  -- The numbers on both sides are the same, each of them once.
  have hnumbers : (log.late.map LateCall.number).Perm (missed.map Prod.snd) := by
    have hnodup : (missed.map Prod.snd).Nodup :=
      List.Nodup.sublist (List.filter_sublist.map _) (by
        rw [List.zipIdx_map_snd]
        exact List.nodup_range')
    refine (List.perm_ext_iff_of_nodup ha.once hnodup).mpr fun n => ?_
    rw [hmissed]
    constructor
    · intro hn
      obtain ⟨l, hl, rfl⟩ := List.mem_map.mp hn
      obtain ⟨c, hc, hbegun, _⟩ := ha.late l hl
      exact ⟨c, hc, hbegun⟩
    · rintro ⟨c, hc, hbegun⟩
      by_contra hlate
      have hqueued := (ha.job n c.job).mpr ⟨c, hc, hbegun, hlate, rfl⟩
      cases hstarted _ (List.mem_of_getElem? (Option.join_eq_some_iff.mp hqueued))
  let jobOf (n : Nat) : Option (HookThread × Hook α) := handed[n]?.map Handed.job
  have hlate : (log.late.map LateCall.number).filterMap jobOf = log.late.map LateCall.job := by
    rw [List.filterMap_map, ← List.filterMap_eq_map]
    refine List.filterMap_congr fun l hl => ?_
    obtain ⟨c, hc, _, hworker, hhook⟩ := ha.late l hl
    simp [jobOf, hc, Handed.job, LateCall.job, hworker, hhook]
  have hmiss : (missed.map Prod.snd).filterMap jobOf =
      (handed.filter fun c => !c.begun.isSome).map Handed.job := by
    have hfst : missed.map Prod.fst = handed.filter fun c => !c.begun.isSome := by
      rw [← List.zipIdx_map_fst 0 handed, List.filter_map]
      rfl
    rw [List.filterMap_map, ← hfst, List.map_map, ← List.filterMap_eq_map]
    refine List.filterMap_congr fun x hx => ?_
    have hc : handed[x.2]? = some x.1 := List.mem_zipIdx_iff_getElem?.mp (List.mem_of_mem_filter hx)
    simp [jobOf, hc]
  rw [← hlate, ← hmiss]
  exact hnumbers.filterMap jobOf

/-- When every thread has started, each of the hooks has been called exactly once. -/
theorem Account.calls_perm {handed : List (Handed α)}
    {queued : List (Option (HookThread × Hook α))} (ha : Account limit hooks handed log queued)
    (hstarted : ∀ job ∈ queued, job = none) : log.calls.Perm (handed.map Handed.job) := by
  have hinWait : log.inWait.filterMap Deed.call? =
      (handed.filter (·.begun.isSome)).map Handed.job := by
    rw [ha.inWait, Handed.calls_inWait]
  refine log.calls_perm.trans ?_
  rw [hinWait]
  refine (List.Perm.append_left _ (ha.late_perm hstarted)).trans ?_
  rw [← List.map_append]
  exact (List.filter_append_perm _ _).map _

/-- What a sweep that is over has done, and where it stands if nobody has interfered with it. -/
theorem account_of_play {started : Timestamp} {limit : Duration} {hooks : List (Hook α)}
    {turns : List (Turn σ)} {s : σ}
    (hover : (play around call turns (.start started limit hooks, s)).1.isOver = true) :
    let x := play around call turns (.start started limit hooks, s)
    ∃ handed log,
      play around.noting (noting call) (turns.map Turn.noting)
          (.start started limit hooks, s, []) = (x.1, x.2, log.all) ∧
      Account limit hooks handed log x.1.queued ∧
      x.1.report.records = handed.map (Handed.record limit) ∧
      (turns.any Turn.isOutside = false → log.late = [] →
        Sweep.run around call limit (handed.map Handed.start) s =
          (report limit x.1.records, x.2)) := by
  obtain ⟨log, handed, last, hplay, ht, _, hf⟩ :=
    tracks_play around call (tracks_start started limit hooks) turns s
  rw [List.nil_append] at hplay ht
  obtain ⟨rfl, haccount⟩ := ht.over hover
  refine ⟨handed, log, hplay, haccount, ht.records, fun hinside hlate => ?_⟩
  exact (hf hinside hlate s (foretold_start around call started limit hooks s)).over

theorem le_after (t : Timestamp) (d : Duration) : t.le (t.after d) = true := by
  have hsecs : (t.after d).secs = (t.secs * 1000000000 + t.nanos + d.nanos) / 1000000000 :=
    Int.fdiv_eq_ediv_of_nonneg _ (by decide)
  have hnanos : (t.after d).nanos =
      ((t.secs * 1000000000 + t.nanos + d.nanos) % 1000000000).toNat :=
    congrArg Int.toNat (Int.fmod_eq_emod_of_nonneg _ (by decide))
  simp only [Timestamp.le, Bool.or_eq_true, Bool.and_eq_true, decide_eq_true_eq, beq_iff_eq]
  omega

/-- No sweep ends before it begins. -/
theorem isOrdered_reportSince (started : Timestamp) (limit : Duration) (records : List HookRecord) :
    (reportSince started limit records).isOrdered = true :=
  le_after started _

/-- A hook that never returns is left alone, and answers while the next one runs; the thread of a
third hook starts when nobody waits for it any more. -/
example :
    let call : Call Unit (List Nat) := fun w h s =>
      (⟨.succeeded, if h.id = 0 then none else some .zero, w.slot⟩, s ++ [h.id])
    let x := play ⟨fun _ s => s, fun _ s => s⟩ call
      [.sweep, .begin 0 .zero, .sweep, .sweep, .begin 1 .zero, .answer 0 .completed, .sweep, .sweep,
        .sweep, .begin 2 .zero]
      (.start ⟨0, 0⟩ (.ofSecs 1) [⟨0, "stuck", ()⟩, ⟨1, "next", ()⟩, ⟨2, "late", ()⟩], [])
    x.1.boxes = [some .completed, some .completed, none] ∧ x.2 = [0, 1, 2] ∧
      x.1.records.map (·.outcome) = [.timedOut, .completed, .timedOut] := by
  decide

end Sweep

end SupervisedWorker
