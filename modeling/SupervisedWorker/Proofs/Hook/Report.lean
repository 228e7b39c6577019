import SupervisedWorker.Hook.Script
import SupervisedWorker.Proofs.Failure
import SupervisedWorker.Proofs.Hook.Sweep
import SupervisedWorker.Proofs.Text.Lines

/-!
# The lines of a report

A report puts the names of hooks and what is known about their failures into its text as they are.
A line break in a name, and any line of a failure, therefore makes a line of its own, which may read
like anything.

Results:
1. `oneLine_exact`: times as they are measured have no line breaks.
2. `lines_recordText`, `lines_textBy`: the lines that a report puts around names and failures.
3. `count_textBy`: a line that the report does not write itself stands in it as often as hooks have
   it among their own lines.
-/

namespace SupervisedWorker

open Text

/-! ## 1. Times on one line -/

/-- Whether times are written without line breaks. -/
structure ClockText.OneLine (clock : ClockText) : Prop where
  started : ∀ time, IsOneLine (clock.started time)
  completed : ∀ time, IsOneLine (clock.completed time)
  elapsed : ∀ span, IsOneLine (clock.elapsed span)

namespace Duration

variable {c : Char}

theorem notMem_paddedDigits (hc : c.isDigit = false) (width n : Nat) :
    c ∉ paddedDigits width n := by
  have hzero : c ≠ '0' := by
    rintro rfl
    cases hc
  rw [paddedDigits, List.mem_append, not_or]
  exact ⟨fun h => hzero (List.eq_of_mem_replicate h), notMem_toDigits hc n⟩

theorem notMem_fractionText (hc : c.isDigit = false) (hdot : c ≠ '.') (width rest : Nat) :
    c ∉ fractionText width rest := by
  unfold fractionText
  split
  · exact List.not_mem_nil
  · rw [List.mem_cons, not_or]
    refine ⟨hdot, fun hdigits => notMem_paddedDigits hc width rest ?_⟩
    exact List.mem_reverse.mp ((List.dropWhile_sublist _).mem (List.mem_reverse.mp hdigits))

theorem notMem_inUnit (hc : c.isDigit = false) (hdot : c ≠ '.') {unit : String}
    (hunit : c ∉ unit.toList) (n rest width : Nat) : c ∉ (inUnit n rest width unit).toList := by
  rw [inUnit, String.toList_append, String.toList_ofList, List.mem_append, List.mem_append,
    not_or, not_or]
  exact ⟨⟨notMem_toDigits hc n, notMem_fractionText hc hdot width rest⟩, hunit⟩

/-- A span of time is written with digits, a point and the letters of a unit. -/
theorem notMem_text (hc : c.isDigit = false) (hdot : c ≠ '.') (hunits : c ∉ "mµns".toList)
    (d : Duration) : c ∉ d.text.toList := by
  have hunit {unit : String} (h : unit.toList ⊆ "mµns".toList) : c ∉ unit.toList :=
    fun hmem => hunits (h hmem)
  unfold text
  split
  · exact notMem_inUnit hc hdot (hunit (by decide)) _ _ _
  · split
    · exact notMem_inUnit hc hdot (hunit (by decide)) _ _ _
    · split <;> exact notMem_inUnit hc hdot (hunit (by decide)) _ _ _

theorem isOneLine_text (d : Duration) : IsOneLine d.text :=
  notMem_text (by decide) (by decide) (by decide) d

end Duration

namespace Timestamp

theorem isOneLine_padded (width n : Nat) : IsOneLine (padded width n) := by
  rw [IsOneLine, padded, String.toList_ofList]
  exact Duration.notMem_paddedDigits rfl width n

theorem isOneLine_yearText (year : Int) : IsOneLine (yearText year) := by
  unfold yearText
  split
  · exact isOneLine_padded _ _
  · refine isOneLine_append.mpr ⟨?_, isOneLine_padded _ _⟩
    split <;> decide

theorem isOneLine_fractionText (nanos : Nat) : IsOneLine (fractionText nanos) := by
  have hdot : IsOneLine "." := by decide
  unfold fractionText
  split
  · decide
  · split
    · exact isOneLine_append.mpr ⟨hdot, isOneLine_padded _ _⟩
    · split <;> exact isOneLine_append.mpr ⟨hdot, isOneLine_padded _ _⟩

theorem isOneLine_text (t : Timestamp) : IsOneLine t.text := by
  have hdash : IsOneLine "-" := by decide
  have hcolon : IsOneLine ":" := by decide
  have htime : IsOneLine "T" := by decide
  have hzone : IsOneLine "+00:00" := by decide
  simp only [text, isOneLine_append, isOneLine_yearText, isOneLine_padded, isOneLine_fractionText,
    hdash, hcolon, htime, hzone, and_self]

end Timestamp

theorem ClockText.oneLine_exact : ClockText.exact.OneLine :=
  ⟨Timestamp.isOneLine_text, Timestamp.isOneLine_text, Duration.isOneLine_text⟩

theorem ClockText.oneLine_masked : ClockText.masked.OneLine := by
  have hstart : IsOneLine "<START>" := by decide
  have hend : IsOneLine "<END>" := by decide
  have hspan : IsOneLine "<T>" := by decide
  exact ⟨fun _ => hstart, fun _ => hend, fun _ => hspan⟩

/-! ## 2. Lines of records -/

/-- The lines that a hook has all to itself in a report: those of its name but for the first and the
last, and those of what is known about its failure. -/
def HookRecord.ownLines (record : HookRecord) : List String :=
  innerLines record.name ++ (record.outcome.detail.map lines).getD []

namespace Report

/-- With what the lines begin that are no one's own, in a report and in the account of a panic. -/
def starts : List (Option Char) := [some 'S', some 'C', some '>', some 'p']

/-- With what the lines end that begin with a name or with the message of a panic. -/
def stops : List (Option Char) := [some ')', some ':', some '>']

/-- Whether a line can be told from those lines. -/
structure IsForeign (line : String) : Prop where
  head : line.toList.head? ∉ starts
  last : line.toList.getLast? ∉ stops

theorem IsForeign.ne_prepend {line pre : String} (h : IsForeign line)
    (hpre : pre.toList.head? ∈ starts) (t : String) : pre ++ t ≠ line := by
  have hne : pre.toList ≠ [] := by
    intro hnil
    rw [hnil] at hpre
    exact absurd hpre (by decide)
  rintro rfl
  have hhead := h.head
  rw [String.toList_append, List.head?_append, List.head?_eq_some_head hne, Option.some_or,
    ← List.head?_eq_some_head hne] at hhead
  exact hhead hpre

theorem IsForeign.ne_append {line stop : String} (h : IsForeign line)
    (hstop : stop.toList.getLast? ∈ stops) (t : String) : t ++ stop ≠ line := by
  have hne : stop.toList ≠ [] := by
    intro hnil
    rw [hnil] at hstop
    exact absurd hstop (by decide)
  rintro rfl
  have hlast := h.last
  rw [String.toList_append, List.getLast?_append, List.getLast?_eq_some_getLast hne,
    Option.some_or, ← List.getLast?_eq_some_getLast hne] at hlast
  exact hlast hstop

/-- A line that the report writes itself is not a foreign one. -/
theorem IsForeign.count_own {line pre : String} (h : IsForeign line)
    (hpre : pre.toList.head? ∈ starts) {text : String} (hone : IsOneLine (pre ++ text)) :
    (lines (pre ++ text)).count line = 0 := by
  rw [lines_of_isOneLine hone, List.count_singleton, if_neg]
  simpa using h.ne_prepend hpre text

/-- Around a name a report writes a line of its own. -/
theorem IsForeign.count_around {line pre post stop : String} (h : IsForeign line)
    (hpre : pre.toList.head? ∈ starts) (hstop : stop.toList.getLast? ∈ stops)
    (hone : IsOneLine pre) (hone' : IsOneLine (post ++ stop)) (name : String) :
    (lines (pre ++ name ++ (post ++ stop))).count line = (innerLines name).count line := by
  refine count_lines_between hone hone' (h.ne_prepend hpre) (fun t => ?_) name
  rw [← String.append_assoc]
  exact h.ne_append hstop (t ++ post)

/-! ## 3. Lines of a report -/

/-- What stands in front of the name in the first line of a record. -/
def opening : Outcome → String
  | .completed => "> shutdown hook called for: "
  | .timedOut => "> timeout waiting for shutdown hook of: "
  | .failed _ => "> shutdown hook of: "

/-- What stands behind the name in the first line of a record. -/
def closing (clock : ClockText) (timeout : Duration) (record : HookRecord) : String :=
  match record.outcome with
  | .completed => " (" ++ clock.elapsed record.elapsed ++ ")"
  | .timedOut => " (limit " ++ timeout.text ++ ")"
  | .failed _ => " reported error" ++ ":"

/-- The first line of a record; what is known about a failure stands below it. -/
def heading (clock : ClockText) (timeout : Duration) (record : HookRecord) : String :=
  opening record.outcome ++ record.name ++ closing clock timeout record

theorem lines_recordText (clock : ClockText) (timeout : Duration) (record : HookRecord)
    (rest : String) : lines (recordText clock timeout record ++ rest) =
      lines (heading clock timeout record) ++
        ((record.outcome.detail.map lines).getD [] ++ lines rest) := by
  obtain ⟨name, outcome, elapsed⟩ := record
  cases outcome with
  | completed =>
    have htext : recordText clock timeout ⟨name, .completed, elapsed⟩ ++ rest =
        heading clock timeout ⟨name, .completed, elapsed⟩ ++ "\n" ++ rest := by
      simp only [recordText, heading, opening, closing, String.append_assoc]
      rfl
    rw [htext, lines_break]
    rfl
  | timedOut =>
    have htext : recordText clock timeout ⟨name, .timedOut, elapsed⟩ ++ rest =
        heading clock timeout ⟨name, .timedOut, elapsed⟩ ++ "\n" ++ rest := by
      simp only [recordText, heading, opening, closing, String.append_assoc]
      rfl
    rw [htext, lines_break]
    rfl
  | failed detail =>
    have htext : recordText clock timeout ⟨name, .failed detail, elapsed⟩ ++ rest =
        heading clock timeout ⟨name, .failed detail, elapsed⟩ ++ "\n" ++
          (detail ++ "\n" ++ rest) := by
      simp only [recordText, heading, opening, closing, String.append_assoc]
      rfl
    rw [htext, lines_break, lines_break]
    rfl

theorem isOneLine_closing {clock : ClockText} (hclock : clock.OneLine) (timeout : Duration)
    (record : HookRecord) : IsOneLine (closing clock timeout record) := by
  unfold closing
  split
  · exact isOneLine_append.mpr ⟨isOneLine_append.mpr ⟨by decide, hclock.elapsed _⟩, by decide⟩
  · exact isOneLine_append.mpr ⟨isOneLine_append.mpr ⟨by decide, timeout.isOneLine_text⟩,
      by decide⟩
  · decide

theorem head_opening (outcome : Outcome) : (opening outcome).toList.head? = some '>' := by
  unfold opening
  split <;> decide

theorem isOneLine_opening (outcome : Outcome) : IsOneLine (opening outcome) := by
  unfold opening
  split <;> decide

theorem last_closing (clock : ClockText) (timeout : Duration) (record : HookRecord) :
    (closing clock timeout record).toList.getLast? ∈ stops := by
  have hlast (s : String) {stop : String} {c : Char} (h : stop.toList = [c]) :
      (s ++ stop).toList.getLast? = some c := by
    rw [String.toList_append, h, List.getLast?_concat]
  unfold closing
  split
  · rw [hlast _ (c := ')') rfl]
    decide
  · rw [hlast _ (c := ')') rfl]
    decide
  · decide

/-- The heading of a record is a line of a report's own, whatever the hook's name is. -/
theorem IsForeign.count_heading {clock : ClockText} (hclock : clock.OneLine) {line : String}
    (h : IsForeign line) (timeout : Duration) (record : HookRecord) :
    (lines (heading clock timeout record)).count line = (innerLines record.name).count line :=
  count_lines_between (isOneLine_opening _) (isOneLine_closing hclock timeout record)
    (h.ne_prepend (by rw [head_opening]; decide)) (h.ne_append (last_closing clock timeout record))
    record.name

/-- A foreign line stands in the text of a record as often as the hook has it among its own. -/
theorem count_recordText {clock : ClockText} (hclock : clock.OneLine) {line : String}
    (h : IsForeign line) (timeout : Duration) (record : HookRecord) (rest : String) :
    (lines (recordText clock timeout record ++ rest)).count line =
      record.ownLines.count line + (lines rest).count line := by
  rw [lines_recordText, List.count_append, List.count_append, h.count_heading hclock,
    HookRecord.ownLines, List.count_append, Nat.add_assoc]

theorem count_recordTexts {clock : ClockText} (hclock : clock.OneLine) {line : String}
    (h : IsForeign line) (timeout : Duration) (records : List HookRecord) (rest : String) :
    (lines (String.join (records.map (recordText clock timeout)) ++ rest)).count line =
      (records.flatMap HookRecord.ownLines).count line + (lines rest).count line := by
  induction records with
  | nil =>
    rw [List.map_nil, String.join_nil, String.empty_append]
    exact (Nat.zero_add _).symm
  | cons record records ih =>
    rw [List.map_cons, String.join_cons, String.append_assoc, count_recordText hclock h, ih,
      List.flatMap_cons, List.count_append, Nat.add_assoc]

/-- The first line of a report. -/
def startLine (clock : ClockText) (report : Report) : String :=
  "Started shutdown at: " ++ clock.started report.started

/-- The second line of a report about so many hooks. -/
def callingLine (hooks : Nat) : String :=
  "Calling [" ++ (toString hooks ++ "] shutdown hooks...")

/-- The last line of a report. -/
def endLine (clock : ClockText) (report : Report) : String :=
  "Completed shutdown at: " ++
    (clock.completed report.completed ++ " (took " ++ clock.elapsed report.elapsed ++ ")")

theorem isOneLine_startLine {clock : ClockText} (hclock : clock.OneLine) (report : Report) :
    IsOneLine (startLine clock report) :=
  isOneLine_append.mpr ⟨by decide, hclock.started _⟩

theorem isOneLine_callingLine (hooks : Nat) : IsOneLine (callingLine hooks) :=
  isOneLine_append.mpr ⟨by decide, isOneLine_append.mpr ⟨isOneLine_toString hooks, by decide⟩⟩

theorem isOneLine_endLine {clock : ClockText} (hclock : clock.OneLine) (report : Report) :
    IsOneLine (endLine clock report) :=
  isOneLine_append.mpr ⟨by decide, isOneLine_append.mpr ⟨isOneLine_append.mpr
    ⟨isOneLine_append.mpr ⟨hclock.completed _, by decide⟩, hclock.elapsed _⟩, by decide⟩⟩

theorem lines_textBy {clock : ClockText} (hclock : clock.OneLine) (report : Report) :
    lines (report.textBy clock) = startLine clock report :: callingLine report.size ::
      lines (String.join (report.records.map (recordText clock report.timeout)) ++
        endLine clock report) := by
  have htext : report.textBy clock = startLine clock report ++ "\n" ++
      (callingLine report.size ++ "\n" ++
        (String.join (report.records.map (recordText clock report.timeout)) ++
          endLine clock report)) := by
    have hcalling : toString "] shutdown hooks...\n" = "] shutdown hooks..." ++ "\n" := rfl
    unfold textBy startLine callingLine endLine
    rw [hcalling]
    -- The literals must stay apart, or the line break would be put back into its line.
    simp only [String.append_assoc, -String.reduceAppend]
    rfl
  rw [htext, lines_break, lines_break, lines_of_isOneLine (isOneLine_startLine hclock report),
    lines_of_isOneLine (isOneLine_callingLine report.size)]
  rfl

/-- A foreign line stands in a report as often as its hooks have it among their own lines. -/
theorem count_textBy {clock : ClockText} (hclock : clock.OneLine) {line : String}
    (h : IsForeign line) (report : Report) :
    (lines (report.textBy clock)).count line =
      (report.records.flatMap HookRecord.ownLines).count line := by
  have hstart : (lines (startLine clock report)).count line = 0 :=
    h.count_own (by decide) (isOneLine_startLine hclock report)
  have hcalling : (lines (callingLine report.size)).count line = 0 :=
    h.count_own (by decide) (isOneLine_callingLine report.size)
  have hend : (lines (endLine clock report)).count line = 0 :=
    h.count_own (by decide) (isOneLine_endLine hclock report)
  rw [lines_of_isOneLine (isOneLine_startLine hclock report), List.count_eq_zero,
    List.mem_singleton] at hstart
  rw [lines_of_isOneLine (isOneLine_callingLine report.size), List.count_eq_zero,
    List.mem_singleton] at hcalling
  rw [lines_textBy hclock, List.count_cons_of_ne (Ne.symm hstart),
    List.count_cons_of_ne (Ne.symm hcalling), count_recordTexts hclock h, hend, Nat.add_zero]

end Report

/-! ## 4. Lines that hooks write -/

/-- The lines of a report that are shaped by how a scripted hook ends. -/
def HookEnding.freeLines : HookEnding → List String
  | .fail cause => lines cause.message
  | .panic payload => innerLines payload.message
  | _ => []

/-- The lines of a report that are shaped by a scripted hook. -/
def Hook.freeLines (h : Hook HookScript) : List String :=
  innerLines h.name ++ h.action.ending.freeLines

/-- The account of a panic. -/
theorem count_lines_panic {line : String} (h : Report.IsForeign line)
    (payload : Panic.Payload) :
    (lines (Panic.describe payload (some HookScript.trace)).1).count line =
      (innerLines payload.message).count line := by
  have htext : (Panic.describe payload (some HookScript.trace)).1 =
      "panicked: " ++ payload.message ++ (" at " ++ "<LOCATION>") ++ "\n" ++
        ("stack backtrace:" ++ "\n" ++ "<TRACE>") := by
    simp only [Panic.describe, Panic.take, String.append_assoc]
    rfl
  have hother : line ∉ ["stack backtrace:"] ++ ["<TRACE>"] := by
    rw [List.mem_append, List.mem_singleton, List.mem_singleton]
    rintro (rfl | rfl) <;> exact h.last (by decide)
  rw [htext, lines_break, lines_break, List.count_append,
    h.count_around (by decide) (by decide) (by decide) (by decide),
    lines_of_isOneLine (by decide : IsOneLine "stack backtrace:"),
    lines_of_isOneLine (by decide : IsOneLine "<TRACE>"),
    List.count_eq_zero_of_not_mem hother, Nat.add_zero]

open Sweep

/-- What becomes of a hook that replies in time. -/
theorem verdict_inTime {limit time : Duration} (h : ¬limit < time) (attempt : Attempt)
    (slot : Panic.Slot) : verdict limit ⟨attempt, some time, slot⟩ =
      match attempt with
      | .succeeded => .completed
      | .failed cause => .failed cause.fullText
      | .panicked payload => .failed (Panic.describe payload slot).1 := if_neg h

theorem verdict_late {limit time : Duration} (h : limit < time) (attempt : Attempt)
    (slot : Panic.Slot) : verdict limit ⟨attempt, some time, slot⟩ = .timedOut := if_pos h

/-- The lines of a report that are shaped by a hook that was handed over: how it ends shows only if
its thread started on it in time. -/
def Sweep.Handed.freeLines (c : Handed HookScript) : List String :=
  if c.begun.isSome then c.hook.freeLines else innerLines c.hook.name

/-- A foreign line without a margin is among the own lines of a hook as often as the hook writes
it. -/
theorem count_ownLines_record {line : String} (h : Report.IsForeign line)
    (hflush : Failure.IsFlush line) {limit : Duration} {c : Handed HookScript}
    (hdelay : ∀ x ∈ c.begun, x.1 ≤ limit)
    (hreply : ∀ x ∈ c.begun, ∃ slot, x.2 = HookScript.reply slot c.hook.action.ending) :
    (c.record limit).ownLines.count line = c.freeLines.count line := by
  obtain ⟨w, hook, begun⟩ := c
  cases begun with
  | none => exact congrArg (List.count line) (List.append_nil (innerLines hook.name))
  | some x =>
    obtain ⟨delay, reply⟩ := x
    obtain ⟨slot, hslot⟩ := hreply _ rfl
    obtain rfl : reply = HookScript.reply slot hook.action.ending := hslot
    -- A hook that fails or panics does so at once, so it is within the limit as its start was.
    have hsoon : ¬limit < delay + Duration.zero := Nat.not_lt.mpr (hdelay _ rfl)
    have houtcome : ∀ outcome,
        verdict limit ((HookScript.reply slot hook.action.ending).delayed delay) = outcome →
        ((⟨w, hook, some (delay, HookScript.reply slot hook.action.ending)⟩ :
          Handed HookScript).record limit).ownLines.count line =
          (innerLines hook.name).count line + ((outcome.detail.map lines).getD []).count line := by
      rintro _ rfl
      exact List.count_append
    show _ = hook.freeLines.count line
    rw [Hook.freeLines, List.count_append]
    cases hending : hook.action.ending with
    | succeed =>
      rw [hending] at houtcome
      exact houtcome .completed (verdict_inTime hsoon ..)
    | fail cause =>
      rw [hending] at houtcome
      rw [houtcome (.failed cause.fullText) (verdict_inTime hsoon ..)]
      exact congrArg _ (Failure.count_lines_fullText hflush cause)
    | panic payload =>
      rw [hending] at houtcome
      rw [houtcome _ (verdict_inTime hsoon ..)]
      exact congrArg _ (count_lines_panic h payload)
    | hang =>
      rw [hending] at houtcome
      exact houtcome .timedOut rfl
    | sleep time =>
      rw [hending] at houtcome
      by_cases hlate : limit < delay + time
      · exact houtcome .timedOut (verdict_late hlate ..)
      · exact houtcome .completed (verdict_inTime hlate ..)

end SupervisedWorker
