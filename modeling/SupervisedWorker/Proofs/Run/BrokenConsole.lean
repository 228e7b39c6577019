import SupervisedWorker.Proofs.Run.Outspoken

/-!
# Runs before a broken console

A stream may fill up, take little at a time and refuse to be flushed. A run notes that a line did
not get through, and goes on. So where hooks print nothing, a broken console changes nothing about a
run but what the streams receive. Where entries are shown on the console, the notes are among what
they receive.

Results:
1. `settle_alike`: the exit after a run is the same before any console.
2. `broken_console_changes_nothing`: so are the run and its exit.
3. `notes_reach_output`: a broken output may receive a note that no other would.
-/

namespace SupervisedWorker

/-- The stream, if it accepted everything. -/
def OutStream.mended (s : OutStream) : OutStream :=
  { s with chunk := none, limit := none, flushFails := false }

/-- The process, if its streams accepted everything. -/
def Worker.mended (w : Worker) : Worker :=
  { w with gate := ⟨w.gate.suppressed, w.gate.out.mended, w.gate.err.mended⟩ }

theorem Worker.alike_mended (w : Worker) : w.Alike w.mended := .console _ w.journal w.shown rfl

theorem OutStream.fits_mended (s : OutStream) (bytes : List UInt8) : s.mended.fits bytes = bytes :=
  fits_unbounded rfl bytes

namespace Run

variable {σ : Type} {p : Plan σ}

/-- What the guard at the exit reports after a run. -/
def exitReport (sweep : Worker → Report × Worker) (ending : Ending) (w : Worker) : Option Report :=
  match ending with
  | .stopped _ _ => (w.goOff sweep .armed).1
  | .orphaned => (w.goOff sweep ExitGuard.armed.disarm).1
  | .bootFailed failure => ((w.write (bootEntry failure)).goOff sweep .armed).1

theorem sayOrphaned_alike {w w' : Worker} (h : w.Alike w') :
    (sayOrphaned w).Alike (sayOrphaned w') := by
  cases h with
  | console gate journal shown hgate => exact .console _ _ _ rfl

/-- The exit after a run over hooks that print nothing is the same before any console, and adds
nothing to the output. -/
theorem settle_alike {w w' : Worker} (h : w.Alike w') (hw : AllSilent w.registry.hooks)
    (limit : Duration) {turns : List HookTurn} (hturns : ∀ t ∈ turns, t.IsSilent)
    (ending : Ending) :
    let sweep := Worker.sweepIn limit turns
    (settle sweep ending w).2.Alike (settle sweep ending w').2 ∧
      exitReport sweep ending w = exitReport sweep ending w' ∧
      (settle sweep ending w).2.gate.out = w.gate.out := by
  cases ending with
  | stopped trigger report =>
    obtain ⟨hreport, halike, hgate⟩ := Worker.goOff_silent h hw limit hturns .armed
    exact ⟨halike, hreport, congrArg Gate.out hgate⟩
  | orphaned =>
    obtain ⟨hreport, halike, hgate⟩ :=
      Worker.goOff_silent h hw limit hturns ExitGuard.armed.disarm
    have hquiet : (w.goOff (Worker.sweepIn limit turns) ExitGuard.armed.disarm).2.gate.out =
        w.gate.out := congrArg Gate.out hgate
    exact ⟨sayOrphaned_alike halike, hreport, hquiet⟩
  | bootFailed failure =>
    let e := bootEntry failure
    obtain ⟨hreport, halike, hgate⟩ := Worker.goOff_silent (h.write e e) hw limit hturns .armed
    exact ⟨halike, hreport, congrArg Gate.out hgate⟩

/-- A run whose hooks print nothing: neither those from before it, nor those of its services, nor
those that others register; and none that was left alone prints. -/
structure Silent (p : Plan σ) (w : Worker) (ms : List (Traffic.Move σ)) : Prop where
  hooks : AllSilent w.registry.hooks
  services : p.IsSilent
  moves : ∀ m ∈ ms, m.IsSilent

/-- Two runs of the same course that are the same but for their consoles. -/
structure SameRun (p : Plan σ) (show? : EntryLine) (x₀ y₀ : Traffic σ)
    (ms ms' : List (Traffic.Move σ)) (x y : Traffic σ) : Prop where
  /-- They stand at the same point, on processes that differ in their consoles only. -/
  alike : x.run.Alike y.run
  /-- They have ended alike, if they have: by the same trigger and with the same report. -/
  ending : x.run.ending? = y.run.ending?
  /-- Their main tasks have attempted to print the same lines. -/
  attempts : x₀.collect p show? (Traffic.attempts p) ms =
    y₀.collect p show? (Traffic.attempts p) ms'
  /-- They have handed over the same hooks in the same order, and called them with the same
  replies. -/
  calls : x₀.collect p show? (Traffic.hands p) ms = y₀.collect p show? (Traffic.hands p) ms'
  /-- The process exits with the same status, and the guard sweeps alike. -/
  exit : ∀ turns : List HookTurn, (∀ t ∈ turns, t.IsSilent) →
    ∀ ending, x.run.ending? = some ending →
      let sweep := Worker.sweepIn p.hookLimit turns
      let e := settle sweep ending x.run.worker
      let e' := settle sweep ending y.run.worker
      e.1 = e'.1 ∧ e.2.Alike e'.2 ∧
        exitReport sweep ending x.run.worker = exitReport sweep ending y.run.worker

theorem silent_of_course {ms ms' : List (Traffic.Move σ)}
    (hcourse : Traffic.course ms = Traffic.course ms') {P : Traffic.Move σ → Prop}
    (hland : ∀ number, P (.land number)) (hms : ∀ m ∈ ms, P m) : ∀ m ∈ ms', P m := by
  intro m hm
  cases hlanding : m.isLanding with
  | true =>
    cases m with
    | land number => exact hland number
    | _ => cases hlanding
  | false =>
    have hmem : m ∈ Traffic.course ms' := List.mem_filter.mpr ⟨hm, by rw [hlanding]; rfl⟩
    rw [← hcourse] at hmem
    exact hms m (List.mem_filter.mp hmem).1

/-- A broken console changes nothing about a run but what the streams receive.

Two runs of the same course, one of them before streams that accept everything, may differ in the
lines of others that reach the streams. Wherever the one leads, the other can follow, and they are
the same run up to the exit of the process. Every line of the protocol is attempted when it is due,
whatever became of the lines before it, and the output receives what fits of the lines that it is
offered, from the first byte on. Where no entries are shown and nobody else writes, these are the
same lines before any console, so the output receives the beginning of what another would, and the
exit adds nothing to that. -/
theorem broken_console_changes_nothing {w : Worker} (hchunk : w.gate.out.chunk ≠ some 0)
    (show? : EntryLine) {ms ms' : List (Traffic.Move σ)} (hsilent : Silent p w ms)
    (hcourse : Traffic.course ms = Traffic.course ms') (o : σ) :
    let x₀ := Traffic.start (p.start w o)
    let y₀ := Traffic.start (p.start w.mended o)
    ((x₀.moves p show? ms).isSome → (y₀.moves p show? (Traffic.course ms)).isSome) ∧
    ((y₀.moves p show? ms').isSome → (x₀.moves p show? (Traffic.course ms')).isSome) ∧
    ∀ x y, x₀.moves p show? ms = some x → y₀.moves p show? ms' = some y →
      SameRun p show? x₀ y₀ ms ms' x y ∧
      x₀.collect p show? (Traffic.attempts p) ms = x.run.stage.part.lines p ++ x.unflushed p ∧
      x.run.worker.gate.out.received = w.gate.out.received ++ w.gate.out.fits (Gate.linesBytes
        (x₀.collect p show? (fun x m => x.offers p m ++ x.lands m) ms)) ∧
      ((∀ e, show? e = none) → (∀ m ∈ ms, m.isPass = false) →
        x.run.worker.gate.out.received <+: y.run.worker.gate.out.received ∧
        ∀ turns : List HookTurn, (∀ t ∈ turns, t.IsSilent) →
          ∀ ending, x.run.ending? = some ending →
            let sweep := Worker.sweepIn p.hookLimit turns
            (settle sweep ending x.run.worker).2.gate.out = x.run.worker.gate.out ∧
            (settle sweep ending y.run.worker).2.gate.out = y.run.worker.gate.out) := by
  obtain ⟨hooks, hp, hms⟩ := hsilent
  intro x₀ y₀
  have halike : x₀.Alike y₀ := ⟨.worker w.mended w.alike_mended, .silent⟩
  have hms' := silent_of_course hcourse (fun _ => trivial) hms
  have hx₀ : x₀.run.IsSilent := silent_start hooks o
  have hooks' : AllSilent w.mended.registry.hooks := hooks
  have hy₀ : y₀.run.IsSilent := silent_start hooks' o
  refine ⟨fun hpossible => ?_, fun hpossible => ?_, fun x y hx hy => ?_⟩
  · obtain ⟨x, hx⟩ := Option.isSome_iff_exists.mp hpossible
    obtain ⟨y, hy, _⟩ := halike.follow hp hx₀ hms hx
    exact Option.isSome_of_eq_some hy
  · obtain ⟨y, hy⟩ := Option.isSome_iff_exists.mp hpossible
    obtain ⟨x, hx, _⟩ := halike.symm.follow hp hy₀ hms' hy
    exact Option.isSome_of_eq_some hx
  · obtain ⟨hend, hcollect⟩ := Traffic.alike_of_course hp halike hx₀ hy₀ hms hms' hcourse hx hy
    have hspoken := Traffic.outspoken hp hms (.inl rfl) hx₀ hchunk hx
    have hspoken' := Traffic.outspoken hp hms' (.inl rfl) hy₀ nofun hy
    have hregistered : AllSilent y.run.worker.registry.hooks := hspoken'.silent.registered
    refine ⟨⟨hend.runs, hend.runs.ending.symm, hcollect _ (Traffic.blind_attempts p),
      hcollect _ (Traffic.blind_hands p), ?_⟩,
      hspoken.lines.symm, hspoken.fills.received, fun hshow hpass => ⟨?_, ?_⟩⟩
    · intro turns hturns ending _
      obtain ⟨hworkers, hreport, _⟩ :=
        settle_alike hend.runs.workers hspoken.silent.registered p.hookLimit hturns ending
      exact ⟨rfl, hworkers, hreport⟩
    · have hpass' := silent_of_course hcourse (fun _ => rfl) hpass
      rw [hspoken.fills.received, hspoken'.fills.received,
        Traffic.collect_lands hshow hpass rfl hx, Traffic.collect_lands hshow hpass' rfl hy,
        ← hcollect _ (Traffic.blind_offers p)]
      have hall (bytes : List UInt8) :
          y₀.run.worker.gate.out.received ++ y₀.run.worker.gate.out.fits bytes =
            w.gate.out.received ++ bytes := congrArg _ (OutStream.fits_mended _ _)
      rw [hall]
      exact List.prefix_append_right_inj _ |>.mpr (OutStream.fits_prefix _ _)
    · intro turns hturns ending _
      exact ⟨(settle_alike hend.runs.workers hspoken.silent.registered p.hookLimit hturns
          ending).2.2,
        (settle_alike hend.runs.symm.workers hregistered p.hookLimit hturns ending).2.2⟩

/-! A worker is told to stop whose output takes three bytes at a time, eight in all, and refuses to
be flushed. -/

def brokenWorker : Worker :=
  (Worker.fresh (.ofStreams ⟨some 3, some 8, true, [], 0⟩ ⟨some 1, some 0, true, [], 0⟩)).attach
    "cache" ⟨"cache", [], .succeed⟩

/-- The stop of the worker with the first line taken apart. -/
def toldToStopAloud : List (Traffic.Move Bool) :=
  [Traffic.Move.look, .speak] ++ toldToStop.map Traffic.Move.step

theorem broken_console_changes_nothing_told_to_stop :
    let x₀ := Traffic.start (watchedRun.start brokenWorker false)
    let y₀ := Traffic.start (watchedRun.start brokenWorker.mended false)
    let show? : EntryLine := fun _ => none
    ∃ x y report, x₀.moves watchedRun show? toldToStopAloud = some x ∧
      y₀.moves watchedRun show? toldToStopAloud = some y ∧
      SameRun watchedRun show? x₀ y₀ toldToStopAloud toldToStopAloud x y ∧
      y.run.ending? = some (.stopped .stopCommand report) ∧
      x₀.collect watchedRun show? (Traffic.attempts watchedRun) toldToStopAloud =
        ["pid=1", closingLines .masked report, "gsa-exit-done"] ∧
      x.run.worker.gate.out.received = Text.utf8 "pid=1\nEx" ∧
      x.run.worker.gate.out.received <+: y.run.worker.gate.out.received := by
  intro x₀ y₀ show?
  have hend : (x₀.moves watchedRun show? toldToStopAloud).map (fun x =>
      (x.run.ending?, x.run.worker.gate.out.received, x.voice.isSilent)) =
      some (some (.stopped .stopCommand ⟨⟨0, 0⟩, ⟨0, 0⟩, .zero, watchedRun.hookLimit,
        [⟨"cache", .completed, .zero⟩]⟩), Text.utf8 "pid=1\nEx", true) := by
    decide +kernel
  have hsilent : Silent watchedRun brokenWorker toldToStopAloud := by
    refine ⟨?_, nofun, ?_⟩
    · unfold AllSilent
      decide
    · simp [toldToStopAloud, toldToStop, Traffic.Move.IsSilent, Move.IsSilent]
  obtain ⟨hpossible, _, hsame⟩ :=
    broken_console_changes_nothing (by decide) show? hsilent rfl false
  obtain ⟨x, hx, hends⟩ := Option.map_eq_some_iff.mp hend
  obtain ⟨hending, hends⟩ := Prod.mk.inj hends
  obtain ⟨hreceived, hvoice⟩ := Prod.mk.inj hends
  obtain ⟨y, hy⟩ := Option.isSome_iff_exists.mp (hpossible (Option.isSome_of_eq_some hx))
  obtain ⟨hrun, hlines, _, hbytes⟩ := hsame x y hx hy
  have hprefix := (hbytes (fun _ => rfl) (by simp [toldToStopAloud, Traffic.Move.isPass])).1
  refine ⟨x, y, _, hx, hy, hrun, hrun.ending ▸ hending, ?_, hreceived, hprefix⟩
  rw [hlines, ending_stage hending]
  have hunflushed : x.unflushed watchedRun = [] := by
    unfold Traffic.unflushed
    split
    · rename_i answer hwritten
      rw [hwritten] at hvoice
      cases hvoice
    · rfl
  rw [hunflushed]
  rfl

/-! Where entries are shown, the note about a line that could not be flushed follows the line on an
output that accepts everything else. -/

def unflushable : Worker :=
  (Worker.fresh (.ofStreams ⟨none, none, true, [], 0⟩ .unlimited)).attach "cache"
    ⟨"cache", [], .succeed⟩

def unnoted : List (Traffic.Move Bool) :=
  toldToStop.map Traffic.Move.step ++ List.replicate 2 (Traffic.Move.land 0)

def noted : List (Traffic.Move Bool) :=
  (toldToStop.take 2).map Traffic.Move.step ++ [Traffic.Move.land 0] ++
    (toldToStop.drop 2).map Traffic.Move.step ++ List.replicate 4 (Traffic.Move.land 0)

/-- Nothing is under way any more, and the broken output has not received the beginning of what the
other has. -/
theorem notes_reach_output :
    let x₀ := Traffic.start (watchedRun.start unflushable false)
    let y₀ := Traffic.start (watchedRun.start unflushable.mended false)
    AllSilent unflushable.registry.hooks ∧ watchedRun.IsSilent ∧ (∀ m ∈ noted, m.IsSilent) ∧
      Traffic.course noted = Traffic.course unnoted ∧
      ∃ x y, x₀.moves watchedRun messages noted = some x ∧
        y₀.moves watchedRun messages unnoted = some y ∧
        x.run.ending?.isSome = true ∧ x.run.ending? = y.run.ending? ∧
        x.underWay watchedRun = [] ∧ y.underWay watchedRun = [] ∧
        ¬ x.run.worker.gate.out.received <+: y.run.worker.gate.out.received := by
  intro x₀ y₀
  have hrun : ((x₀.moves watchedRun messages noted).bind fun x =>
      (y₀.moves watchedRun messages unnoted).bind fun y =>
        some (x.run.ending?.isSome, decide (x.run.ending? = y.run.ending?),
          x.underWay watchedRun ++ y.underWay watchedRun,
          x.run.worker.gate.out.received.isPrefixOf y.run.worker.gate.out.received)) =
      some (true, true, [], false) := by
    decide +kernel
  obtain ⟨x, hx, hrun⟩ := Option.bind_eq_some_iff.mp hrun
  obtain ⟨y, hy, hrun⟩ := Option.bind_eq_some_iff.mp hrun
  obtain ⟨hended, hrun⟩ := Prod.mk.inj (Option.some.inj hrun)
  obtain ⟨hending, hrun⟩ := Prod.mk.inj hrun
  obtain ⟨hlanded, hbytes⟩ := Prod.mk.inj hrun
  obtain ⟨hbroken, hmended⟩ := List.append_eq_nil_iff.mp hlanded
  refine ⟨?_, nofun, ?_, rfl, x, y, hx, hy, hended, of_decide_eq_true hending, hbroken, hmended,
    fun hbeginning => ?_⟩
  · unfold AllSilent
    decide
  · simp [noted, toldToStop, Traffic.Move.IsSilent, Move.IsSilent]
  · rw [List.isPrefixOf_iff_prefix.mpr hbeginning] at hbytes
    cases hbytes

end Run

end SupervisedWorker
