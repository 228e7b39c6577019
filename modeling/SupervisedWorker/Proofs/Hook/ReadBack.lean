import Mathlib.Data.List.DropRight
import SupervisedWorker.Proofs.Hook.Report
import SupervisedWorker.Proofs.Number.Numeral

/-!
# Reports read back

Who has the text of a report can tell the hooks apart again. A line that begins like the first line
of a record begins a record, the line about the end is the last one, and every other line belongs to
the failure above it. Brackets and set phrases in a name do no harm: nothing that a report writes
behind a name has an opening bracket but the first one.

Results:
1. `readHeading_heading`: name and outcome are read from the first line of a record.
2. `collect_records`, `read_text`: the records are read from the lines of a report.
3. `legible_reports_told_apart`: all of it, about reports and about sweeps.
-/

namespace SupervisedWorker

namespace Report

open Text

/-! ## 1. The first line of a record -/

/-- What stands in a line behind the words with which it begins. -/
def behind (words line : String) : Option (List Char) := line.toList.dropPrefix? words.toList

/-- What stands before the last opening bracket and the blank in front of it. -/
def beforeBracket (s : List Char) : String := String.ofList ((s.rdropWhile (· != '(')).rdrop 2)

/-- Reads the first line of a record, given the lines below it that begin nothing. -/
def readHeading (line : String) (detail : List String) : Option (String × Outcome) :=
  ((behind "> shutdown hook called for: " line).map fun rest =>
      (beforeBracket rest, .completed)).or <|
  ((behind "> timeout waiting for shutdown hook of: " line).map fun rest =>
      (beforeBracket rest, .timedOut)).or <|
  (behind "> shutdown hook of: " line).map fun rest =>
      (String.ofList (rest.rdrop " reported error:".length), .failed ("\n".intercalate detail))

theorem behind_append (words rest : String) : behind words (words ++ rest) = some rest.toList := by
  rw [behind, String.toList_append]
  exact List.dropPrefix?_append_of_beq _ (beq_self_eq_true _)

theorem behind_eq_none {words line : String} (h : ¬words.toList <+: line.toList) :
    behind words line = none := by
  rw [Option.eq_none_iff_forall_ne_some]
  intro rest hrest
  obtain ⟨front, hline, hfront⟩ := List.dropPrefix?_eq_some_iff.mp hrest
  rw [beq_iff_eq.mp hfront] at hline
  exact h ⟨rest, hline.symm⟩

/-- Words that differ within their common length do not begin the same line. -/
theorem behind_other {words words' : String} (h : ¬words.toList <+: words'.toList)
    (h' : ¬words'.toList <+: words.toList) (rest : String) : behind words (words' ++ rest) = none := by
  refine behind_eq_none fun hwords => ?_
  rw [String.toList_append] at hwords
  obtain hshort | hlong := List.prefix_or_prefix_of_prefix hwords (List.prefix_append _ _)
  · exact h hshort
  · exact h' hlong

theorem rdropWhile_behind {p : Char → Bool} {front back : List Char}
    (h : ∀ c ∈ back, p c = true) : (front ++ back).rdropWhile p = front.rdropWhile p := by
  rw [List.rdropWhile, List.reverse_append, List.dropWhile_append_of_pos]
  · rfl
  · exact fun c hc => h c (List.mem_reverse.mp hc)

/-- The name ends where the last bracket is opened. -/
theorem beforeBracket_name (name : String) {back : String} (h : '(' ∉ back.toList) :
    beforeBracket (name ++ (" (" ++ back)).toList = name := by
  have hchars : (name ++ (" (" ++ back)).toList = (name.toList ++ [' ', '(']) ++ back.toList := by
    simp
  have hback : ∀ c ∈ back.toList, (c != '(') = true := by
    intro c hc
    rw [bne_iff_ne]
    rintro rfl
    exact h hc
  have hfront : (name.toList ++ [' ', '(']).rdropWhile (· != '(') = name.toList ++ [' ', '('] := by
    rw [List.append_cons]
    exact List.rdropWhile_concat_neg _ _ _ (by decide)
  have hname : (name.toList ++ [' ', '(']).rdrop 2 = name.toList := List.rdrop_append_length
  rw [beforeBracket, hchars, rdropWhile_behind hback, hfront, hname, String.ofList_toList]

/-- What a report tells about a hook. -/
def toldOf (record : HookRecord) : String × Outcome := (record.name, record.outcome)

/-- From the first line of a record and the lines of the detail, name and outcome are read. -/
theorem readHeading_heading (timeout : Duration) (record : HookRecord) :
    readHeading (heading .exact timeout record) ((record.outcome.detail.map lines).getD []) =
      some (toldOf record) := by
  have hspan (d : Duration) : '(' ∉ d.text.toList :=
    d.notMem_text (by decide) (by decide) (by decide)
  obtain ⟨name, outcome, elapsed⟩ := record
  cases outcome with
  | completed =>
    have hline : heading .exact timeout ⟨name, .completed, elapsed⟩ =
        "> shutdown hook called for: " ++ (name ++ (" (" ++ (elapsed.text ++ ")"))) := by
      simp only [heading, opening, closing, String.append_assoc]
      rfl
    have hback : '(' ∉ (elapsed.text ++ ")").toList := by simp [hspan]
    rw [hline, readHeading, behind_append, Option.map_some, Option.some_or,
      beforeBracket_name name hback]
    rfl
  | timedOut =>
    have hline : heading .exact timeout ⟨name, .timedOut, elapsed⟩ =
        "> timeout waiting for shutdown hook of: " ++
          (name ++ (" (" ++ ("limit " ++ (timeout.text ++ ")")))) := by
      simp only [heading, opening, closing, String.append_assoc]
      rfl
    have hback : '(' ∉ ("limit " ++ (timeout.text ++ ")")).toList := by simp [hspan]
    rw [hline, readHeading, behind_other (by decide) (by decide), behind_append, Option.map_none,
      Option.none_or, Option.map_some, Option.some_or, beforeBracket_name name hback]
    rfl
  | failed detail =>
    have hline : heading .exact timeout ⟨name, .failed detail, elapsed⟩ =
        "> shutdown hook of: " ++ (name ++ " reported error:") := by
      simp only [heading, opening, closing, String.append_assoc]
      rfl
    have hname : (name ++ " reported error:").toList.rdrop " reported error:".length =
        name.toList := by
      rw [String.toList_append]
      exact List.rdrop_append_length
    have hdetail : "\n".intercalate (((Outcome.failed detail).detail.map lines).getD []) = detail :=
      intercalate_lines detail
    rw [hline, readHeading, behind_other (by decide) (by decide),
      behind_other (by decide) (by decide), behind_append, Option.map_none, Option.map_none,
      Option.none_or, Option.none_or, Option.map_some, hname, hdetail, String.ofList_toList]
    rfl

/-- Only a line that begins like a record is read as one. -/
theorem readHeading_eq_none {line : String} (h : ¬"> ".toList <+: line.toList)
    (detail : List String) : readHeading line detail = none := by
  have hnone {words : String} (hwords : "> ".toList <+: words.toList) : behind words line = none :=
    behind_eq_none fun hline => h (hwords.trans hline)
  rw [readHeading, hnone (by decide), hnone (by decide), hnone (by decide)]
  rfl

/-! ## 2. All records -/

/-- Puts a line above others that have been read: to the lines that begin nothing, and to the
records below them. -/
def putAbove (line : String) (below : List String × List (String × Outcome)) :
    List String × List (String × Outcome) :=
  match readHeading line below.1 with
  | some record => ([], record :: below.2)
  | none =>
    if "Completed shutdown at: ".toList.isPrefixOf line.toList then ([], below.2)
    else (line :: below.1, below.2)

/-- Reads lines from the last one up. -/
def collect (lines : List String) : List String × List (String × Outcome) :=
  lines.foldr putAbove ([], [])

/-- Reads the records in the text of a report, below the first two lines. -/
def read (text : String) : List (String × Outcome) := (collect ((lines text).drop 2)).2

/-- What a report tells about its hooks, in its order. -/
def told (report : Report) : List (String × Outcome) := report.records.map toldOf

/-- Whether a line begins like one that follows the lines of a failure. -/
def IsMark (line : String) : Prop :=
  "> ".toList <+: line.toList ∨ "Completed shutdown at: ".toList <+: line.toList

instance (line : String) : Decidable (IsMark line) :=
  inferInstanceAs (Decidable (_ ∨ _))

/-- Whether a hook can be told from what a report writes itself: its name is on one line, and no line
of its failure begins like one that follows it. -/
structure IsLegible (record : HookRecord) : Prop where
  name : IsOneLine record.name
  detail : ∀ detail ∈ record.outcome.detail, ∀ line ∈ lines detail, ¬IsMark line

instance (record : HookRecord) : Decidable (IsLegible record) :=
  decidable_of_iff (IsOneLine record.name ∧
    ∀ detail ∈ record.outcome.detail, ∀ line ∈ lines detail, ¬IsMark line)
    ⟨fun h => ⟨h.1, h.2⟩, fun h => ⟨h.name, h.detail⟩⟩

theorem collect_detail {inner : List String} (h : ∀ line ∈ inner, ¬IsMark line)
    (rest : List String) :
    collect (inner ++ rest) = (inner ++ (collect rest).1, (collect rest).2) := by
  induction inner with
  | nil => rfl
  | cons line inner ih =>
    obtain ⟨hrecord, hend⟩ := not_or.mp (h line List.mem_cons_self)
    have hinner := ih fun l hl => h l (List.mem_cons_of_mem line hl)
    have habove : collect (line :: inner ++ rest) = putAbove line (collect (inner ++ rest)) := rfl
    rw [habove, hinner, putAbove, readHeading_eq_none hrecord]
    exact if_neg (mt List.isPrefixOf_iff_prefix.mp hend)

theorem collect_heading {line : String} {rest : List String} (record : String × Outcome)
    (h : readHeading line (collect rest).1 = some record) :
    collect (line :: rest) = ([], record :: (collect rest).2) := by
  have habove : collect (line :: rest) = putAbove line (collect rest) := rfl
  rw [habove, putAbove, h]

theorem collect_end {line : String} (h : "Completed shutdown at: ".toList <+: line.toList) :
    collect [line] = ([], []) := by
  have hrecord : ¬"> ".toList <+: line.toList := by
    intro hrecord
    obtain hshort | hlong := List.prefix_or_prefix_of_prefix h hrecord
    · exact absurd hshort (by decide)
    · exact absurd hlong (by decide)
  have habove : collect [line] = putAbove line ([], []) := rfl
  rw [habove, putAbove, readHeading_eq_none hrecord]
  exact if_pos (List.isPrefixOf_iff_prefix.mpr h)

theorem collect_endLine (report : Report) : collect (lines (endLine .exact report)) = ([], []) := by
  rw [lines_of_isOneLine (isOneLine_endLine ClockText.oneLine_exact report)]
  exact collect_end ⟨_, String.toList_append.symm⟩

theorem isOneLine_heading (timeout : Duration) {record : HookRecord} (h : IsOneLine record.name) :
    IsOneLine (heading .exact timeout record) :=
  isOneLine_append.mpr ⟨isOneLine_append.mpr ⟨isOneLine_opening _, h⟩,
    isOneLine_closing ClockText.oneLine_exact timeout record⟩

/-- The records are read from the lines of a report, each with the lines of its own failure. -/
theorem collect_records (timeout : Duration) {records : List HookRecord}
    (h : ∀ record ∈ records, IsLegible record) {ending : String}
    (hending : collect (lines ending) = ([], [])) :
    collect (lines (String.join (records.map (recordText .exact timeout)) ++ ending)) =
      ([], records.map toldOf) := by
  induction records with
  | nil => rwa [List.map_nil, String.join_nil, String.empty_append]
  | cons record records ih =>
    have hrecord := h record List.mem_cons_self
    have hrest := ih fun r hr => h r (List.mem_cons_of_mem record hr)
    have hinner : ∀ line ∈ (record.outcome.detail.map lines).getD [], ¬IsMark line := by
      cases hdetail : record.outcome.detail with
      | none => exact fun line hline => absurd hline List.not_mem_nil
      | some detail => exact hrecord.detail detail hdetail
    rw [List.map_cons, String.join_cons, String.append_assoc, lines_recordText,
      lines_of_isOneLine (isOneLine_heading timeout hrecord.name), List.singleton_append]
    have hbelow := collect_detail hinner
      (lines (String.join (records.map (recordText .exact timeout)) ++ ending))
    rw [hrest, List.append_nil] at hbelow
    have hheading := readHeading_heading timeout record
    rw [collect_heading (toldOf record) (by rwa [hbelow]), hbelow, List.map_cons]

/-- The text of a report tells what the report does. -/
theorem read_text {report : Report} (h : ∀ record ∈ report.records, IsLegible record) :
    read report.text = report.told := by
  rw [read, text, lines_textBy ClockText.oneLine_exact, List.drop_succ_cons, List.drop_succ_cons,
    List.drop_zero, collect_records report.timeout h (collect_endLine report)]
  rfl

theorem callingLine_injective : Function.Injective callingLine := by
  intro m n h
  have hdigits (n : Nat) : (toString n).toList = Nat.toDigits 10 n := Nat.toList_repr
  have hchars := congrArg String.toList h
  simp only [callingLine, String.toList_append, List.append_cancel_left_eq,
    List.append_cancel_right_eq, hdigits] at hchars
  rw [← Numeral.ofDigits_toDigits m, hchars, Numeral.ofDigits_toDigits]

/-! ## 3. Reports told apart -/

open Sweep

/-- Reports whose hooks can be told from what a report writes itself tell the same about their hooks,
in the same order, if they have the same text. The records are read from the text, and it announces
as many hooks as there are records. What is read from the report of a sweep that is over are the
hooks that it has handed over, in the order in which it has done so, with what became of them; and
this is the order of the calls, if every thread started on its hook in time. -/
theorem legible_reports_told_apart :
    (∀ r r' : Report, (∀ record ∈ r.records, IsLegible record) →
      (∀ record ∈ r'.records, IsLegible record) → r.text = r'.text → r.told = r'.told) ∧
    (∀ r : Report, (∀ record ∈ r.records, IsLegible record) → read r.text = r.told ∧
      ∀ n, (lines r.text)[1]? = some (callingLine n) ↔ n = r.records.length) ∧
    ∀ (α σ : Type) (around : Surroundings α σ) (call : Call α σ) (started : Timestamp)
      (limit : Duration) (hooks : List (Hook α)) (turns : List (Turn σ)) (s : σ),
      let x := play around call turns (.start started limit hooks, s)
      x.1.isOver = true → (∀ record ∈ x.1.report.records, IsLegible record) →
      ∃ handed log,
        play around.noting (noting call) (turns.map Turn.noting)
            (.start started limit hooks, s, []) = (x.1, x.2, log.all) ∧
        Account limit hooks handed log x.1.queued ∧
        ((∀ c ∈ handed, c.begun.isSome) → log.calls = handed.map Handed.job) ∧
        ((∀ job ∈ x.1.queued, job = none) → log.calls.Perm (handed.map Handed.job)) ∧
        read x.1.report.text = handed.map fun c => (c.hook.name, c.outcome limit) := by
  refine ⟨?_, fun r hr => ⟨read_text hr, fun n => ?_⟩, ?_⟩
  · intro r r' hr hr' htext
    rw [← read_text hr, htext, read_text hr']
  · rw [text, lines_textBy ClockText.oneLine_exact, List.getElem?_cons_succ,
      List.getElem?_cons_zero, Option.some_inj, callingLine_injective.eq_iff]
    exact eq_comm
  · intro α σ around call started limit hooks turns s x hover hlegible
    obtain ⟨handed, log, hplay, haccount, hrecords, _⟩ := account_of_play around call hover
    refine ⟨handed, log, hplay, haccount, haccount.calls_eq, haccount.calls_perm, ?_⟩
    rw [read_text hlegible, told, hrecords, List.map_map]
    rfl

/-- Names with brackets and set phrases in them, and a failure of several lines, whose elapsed time
the text does not show. -/
theorem legible_reports_told_apart_brackets :
    let report (elapsed : Duration) : Report := ⟨⟨0, 0⟩, ⟨60, 0⟩, .ofSecs 60, .ofSecs 10,
      [⟨"db (1s) (limit 2s)", .completed, .ofMillis 5⟩,
        ⟨"cache reported error:", .failed "disk gone\n\nCaused by:\n    > full", elapsed⟩,
        ⟨"> shutdown hook of: (", .timedOut, .ofSecs 10⟩]⟩
    let call : Call Unit Unit := fun w h s =>
      (⟨.failed ⟨"refused", ["first", "second"]⟩, if h.id = 0 then none else some .zero, w.slot⟩, s)
    let x := play ⟨fun _ s => s, fun _ s => s⟩ call
      [.sweep, .begin 0 .zero, .sweep, .sweep, .begin 1 (.ofMillis 1), .sweep]
      (.start ⟨0, 0⟩ (.ofSecs 1) [⟨0, "stuck (", ()⟩, ⟨1, "next", ()⟩], ())
    ((∀ record ∈ (report .zero).records, IsLegible record) ∧ report .zero ≠ report (.ofSecs 1) ∧
      (report .zero).text = (report (.ofSecs 1)).text ∧
      (report .zero).told = (report (.ofSecs 1)).told ∧
      read (report .zero).text = (report .zero).told ∧
      (lines (report .zero).text)[1]? = some (callingLine 3)) ∧
    x.1.isOver = true ∧ (∀ record ∈ x.1.report.records, IsLegible record) ∧
      x.1.report.told = [("stuck (", .timedOut),
        ("next", .failed "refused\n\nCaused by:\n    0: first\n    1: second")] ∧
      ∃ handed : List (Handed Unit), handed.map (·.hook.id) = [0, 1] ∧
        read x.1.report.text = handed.map fun c => (c.hook.name, c.outcome (.ofSecs 1)) := by
  intro report call x
  obtain ⟨happart, hread, hsweep⟩ := legible_reports_told_apart
  have hfirst : ∀ record ∈ (report .zero).records, IsLegible record := by decide +kernel
  have hsecond : ∀ record ∈ (report (.ofSecs 1)).records, IsLegible record := by decide +kernel
  have htext : (report .zero).text = (report (.ofSecs 1)).text := by decide +kernel
  have hover : x.1.isOver = true := by decide
  have hrecords : ∀ record ∈ x.1.report.records, IsLegible record := by decide +kernel
  obtain ⟨handed, _, -, haccount, -, -, hhanded⟩ := hsweep Unit Unit _ call _ _ _ _ _ hover hrecords
  refine ⟨⟨hfirst, by decide, htext, happart _ _ hfirst hsecond htext, (hread _ hfirst).1,
    ((hread _ hfirst).2 3).mpr rfl⟩, hover, hrecords, by decide +kernel, handed, ?_, hhanded⟩
  simpa [Function.comp_def] using congrArg (List.map Hook.id) haccount.hooks_eq

end Report

end SupervisedWorker
