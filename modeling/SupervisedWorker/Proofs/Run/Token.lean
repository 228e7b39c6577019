import SupervisedWorker.Proofs.Hook.Report
import SupervisedWorker.Proofs.Run.Protocol

/-!
# The completion token

The agent reads the output line by line and takes the line that is the completion token for the end.
The token is the last line of a run that was told to stop. The report before it shows texts of hooks
as they are, and one of their lines may read like the token.

Results:
1. `lines_of_told`: the lines that are read of a run that was told to stop.
2. `token_read_once_iff`: the token is read last, and once only if no hook writes it.
3. `token_forged`: a failing hook makes the agent read the token before its time.
-/

namespace SupervisedWorker

namespace Run

open Text Sweep

variable {σ : Type} {p : Plan σ} {s : State σ}

/-! ## 1. Lines that are read -/

/-- The line that agents wait for, unless the settings name another one. -/
def defaultToken : String := Settings.default.shutdown.completionToken

theorem defaultToken_isForeign : Report.IsForeign defaultToken := ⟨by decide, by decide⟩

theorem defaultToken_isFlush : Failure.IsFlush defaultToken :=
  ⟨by decide, by decide, by decide⟩

/-- The lines that are read of an undisturbed run that was told to stop. -/
theorem lines_of_told {w : Worker} {o : σ} {ms : List (Move σ)} {report : Report}
    (hquiet : Undisturbed p (p.start w o) ms) (h : (p.start w o).moves p ms = some s)
    (hs : s.stage = .finished (.stopped .stopCommand report)) :
    byteLines (s.worker.gate.out.received.drop w.gate.out.received.length) =
      (lines ("pid=" ++ p.processId) ++ ["Exiting..."] ++ lines (report.textBy p.clock) ++
        lines p.settings.shutdown.completionToken).map utf8 := by
  rw [(received_of_told hquiet h hs).1, List.drop_left, byteLines_linesBytes]
  simp only [List.flatMap_cons, List.flatMap_nil, List.append_nil, List.append_assoc]
  rfl

/-- Beside its last line, such a run shows the default token where hooks have it in the report. -/
theorem count_token_of_told {w : Worker} {o : σ} {ms : List (Move σ)} {report : Report}
    (hquiet : Undisturbed p (p.start w o) ms) (h : (p.start w o).moves p ms = some s)
    (hs : s.stage = .finished (.stopped .stopCommand report))
    (htoken : p.settings.shutdown.completionToken = defaultToken)
    (hid : IsOneLine p.processId) (hclock : p.clock.OneLine) :
    (byteLines (s.worker.gate.out.received.drop w.gate.out.received.length)).count
        (utf8 defaultToken) =
      (report.records.flatMap HookRecord.ownLines).count defaultToken + 1 := by
  have hopening : IsOneLine ("pid=" ++ p.processId) := isOneLine_append.mpr ⟨by decide, hid⟩
  have hother : "pid=" ++ p.processId ≠ defaultToken :=
    defaultToken_isForeign.ne_prepend (by decide) p.processId
  rw [lines_of_told hquiet h hs, htoken, List.count_map_of_injective _ _ utf8_injective,
    lines_of_isOneLine hopening, lines_of_isOneLine (by decide : IsOneLine defaultToken)]
  simp only [List.count_append, Report.count_textBy hclock defaultToken_isForeign,
    List.count_singleton]
  rw [if_neg (by simpa using hother), if_neg (by decide), if_pos (by decide), Nat.zero_add]

/-! ## 2. Lines of hooks -/

/-- A hook whose acts succeed ends as its script says. -/
theorem callBy_reply {nested : Worker → Report × Worker} {h : Hook HookScript} {w : Worker}
    (hacts : (HookScript.actAll nested h.action.acts w).2.1 = none) (t : HookThread) :
    (HookScript.callBy nested t h w).1 = HookScript.reply t.slot h.action.ending := by
  simp only [HookScript.callBy, hacts]

/-- In the report, the lines of the hooks are those that their scripts write. -/
theorem count_ownLines {w : Worker} {o : σ} {ms : List (Move σ)} {report : Report}
    (ha : w.gate.Accepts) (h : (p.start w o).moves p ms = some s)
    (hs : s.stage.phase = .swept report) {line : String} (hline : Report.IsForeign line)
    (hflush : Failure.IsFlush line) :
    (report.records.flatMap HookRecord.ownLines).count line =
      ((handed p (p.start w o) ms).flatMap Handed.freeLines).count line := by
  rw [records_eq h hs, List.flatMap_map, List.count_flatMap, List.count_flatMap]
  congr 1
  refine List.map_congr_left fun c hc => ?_
  refine count_ownLines_record hline hflush (fun x hx => (begun_handed h hc hx).1) fun x hx => ?_
  obtain ⟨_, e, he, hruns, hreply⟩ := begun_handed h hc hx
  exact ⟨_, hreply.trans (callBy_reply (acts_succeed ha h he hruns) c.worker)⟩

/-! ## 3. The token -/

/-- The default token is the last line that is read of an undisturbed run that was told to stop, and
it is read once for that and once for every line of a hook in the report that reads like it. So it
is read exactly once if, and only if, no hook that was handed over writes it: not on a line of its
own in its name, nor, if its thread started in time, in the message of its panic, or on any line of
the message of its failure. -/
theorem token_read_once_iff {w : Worker} {o : σ} {ms : List (Move σ)} {report : Report}
    (hquiet : Undisturbed p (p.start w o) ms) (h : (p.start w o).moves p ms = some s)
    (hending : s.ending? = some (.stopped .stopCommand report))
    (htoken : p.settings.shutdown.completionToken = defaultToken)
    (hid : IsOneLine p.processId) (hclock : p.clock.OneLine) :
    let hooks := handed p (p.start w o) ms
    let read := byteLines (s.worker.gate.out.received.drop w.gate.out.received.length)
    read.getLast? = some (utf8 defaultToken) ∧
    read.count (utf8 defaultToken) = (hooks.flatMap Handed.freeLines).count defaultToken + 1 ∧
    (read.count (utf8 defaultToken) = 1 ↔ ∀ c ∈ hooks, defaultToken ∉ c.freeLines) := by
  intro hooks read
  have hs := ending_stage hending
  have hphase : s.stage.phase = .swept report := by
    rw [hs]
    rfl
  have haccepts : w.gate.Accepts := hquiet.accepts
  have hown := count_ownLines haccepts h hphase defaultToken_isForeign defaultToken_isFlush
  have hcount : read.count (utf8 defaultToken) =
      (hooks.flatMap Handed.freeLines).count defaultToken + 1 :=
    (count_token_of_told hquiet h hs htoken hid hclock).trans (congrArg (· + 1) hown)
  refine ⟨?_, hcount, ?_⟩
  · rw [show read = _ from lines_of_told hquiet h hs, htoken,
      lines_of_isOneLine (by decide : IsOneLine defaultToken), List.map_append]
    exact List.getLast?_concat ..
  · rw [hcount, Nat.add_eq_right, List.count_eq_zero, List.mem_flatMap]
    simp only [not_exists, not_and]

/-! A hook fails, and the token is the cause of its failure: the report indents it. -/

def wrapped : Worker :=
  (Worker.fresh (.ofStreams .unlimited .unlimited)).attach "db"
    ⟨"db", [], .fail ⟨"not closed", ["gsa-exit-done"]⟩⟩

theorem token_read_once_iff_wrapped : ∃ s report,
    (watchedRun.start wrapped false).moves watchedRun toldToStop = some s ∧
    s.ending? = some (.stopped .stopCommand report) ∧ report.failures = 1 ∧
    (byteLines s.worker.gate.out.received).getLast? = some (utf8 "gsa-exit-done") ∧
    (byteLines s.worker.gate.out.received).count (utf8 "gsa-exit-done") = 1 := by
  have hending : ((watchedRun.start wrapped false).moves watchedRun toldToStop).bind
      State.ending? = some (.stopped .stopCommand ⟨⟨0, 0⟩, ⟨0, 0⟩, .zero, watchedRun.hookLimit,
        [⟨"db", .failed "not closed\n\nCaused by:\n    gsa-exit-done", .zero⟩]⟩) := by
    decide +kernel
  obtain ⟨s, hrun, hs⟩ := Option.bind_eq_some_iff.mp hending
  have hquiet := undisturbed_toldToStop rfl
    ⟨OutStream.acceptsAll_unlimited, OutStream.acceptsAll_unlimited⟩ hrun (by decide +kernel)
  obtain ⟨hlast, _, honce⟩ := token_read_once_iff hquiet hrun hs rfl (by decide)
    ClockText.oneLine_masked
  exact ⟨s, _, hrun, hs, rfl, hlast, honce.mpr (by decide +kernel)⟩

/-! The same with the token for the message: the agent reads it twice. -/

def forger : Worker :=
  (Worker.fresh (.ofStreams .unlimited .unlimited)).attach "db"
    ⟨"db", [], .fail (.ofMessage "gsa-exit-done")⟩

theorem token_forged : ∃ s report,
    (watchedRun.start forger false).moves watchedRun toldToStop = some s ∧
    s.ending? = some (.stopped .stopCommand report) ∧
    watchedRun.settings.shutdown.completionToken = "gsa-exit-done" ∧
    (byteLines s.worker.gate.out.received).count (utf8 "gsa-exit-done") = 2 := by
  have hending : ((watchedRun.start forger false).moves watchedRun toldToStop).bind
      State.ending? = some (.stopped .stopCommand ⟨⟨0, 0⟩, ⟨0, 0⟩, .zero, watchedRun.hookLimit,
        [⟨"db", .failed "gsa-exit-done", .zero⟩]⟩) := by
    decide +kernel
  obtain ⟨s, hrun, hs⟩ := Option.bind_eq_some_iff.mp hending
  have hquiet := undisturbed_toldToStop rfl
    ⟨OutStream.acceptsAll_unlimited, OutStream.acceptsAll_unlimited⟩ hrun (by decide +kernel)
  have hcount := count_token_of_told hquiet hrun (ending_stage hs) rfl (by decide)
    ClockText.oneLine_masked
  exact ⟨s, _, hrun, hs, rfl, hcount.trans (by decide)⟩

end Run

end SupervisedWorker
