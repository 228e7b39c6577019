import SupervisedWorker.Failure
import SupervisedWorker.Proofs.Text.Lines

/-!
# The lines of a failure

The full text of a failure shows the message as it is. The causes stand below it, behind a margin:
every one of their lines begins with a space or with the number of the cause.

Result: `count_lines_fullText`, a line without a margin stands in the text as often as in the
message.
-/

namespace SupervisedWorker

open Text

namespace Failure

/-! ## 1. Margins -/

/-- Whether a character can begin a line in the margin. -/
def isMargin (c : Char) : Bool := c == ' ' || c.isDigit

/-- Whether every line begins in the margin. -/
def HasMargin (l : List Char) : Prop := ∀ piece ∈ l.splitOn '\n', piece.head?.any isMargin = true

theorem HasMargin.append_break {l l' : List Char} (h : HasMargin l) (h' : HasMargin l') :
    HasMargin (l ++ '\n' :: l') := by
  intro piece hpiece
  rw [List.splitOn_append_cons_self, List.mem_append] at hpiece
  exact hpiece.elim (h piece) (h' piece)

/-- The lines of a text after its further lines were indented. -/
theorem splitOn_indentLines {indent : List Char} (h : '\n' ∉ indent) (l : List Char) :
    ∃ first rest, l.splitOn '\n' = first :: rest ∧
      (indentLines indent l).splitOn '\n' = first :: rest.map (indent ++ ·) := by
  induction l with
  | nil => exact ⟨[], [], rfl, rfl⟩
  | cons c l ih =>
    obtain ⟨first, rest, hl, hindented⟩ := ih
    -- A line break ends the first line, which makes the next one a further line.
    by_cases hc : c = '\n'
    · subst hc
      have htext : '\n' :: l = [] ++ '\n' :: l := rfl
      have hlines : indentLines indent ('\n' :: l) =
          [] ++ '\n' :: (indent ++ indentLines indent l) := rfl
      refine ⟨[], first :: rest, ?_, ?_⟩
      · rw [htext, List.splitOn_append_cons_self, hl]
        rfl
      · rw [hlines, List.splitOn_append_cons_self, splitOn_append_of_notMem h, hindented]
        rfl
    · have htext : c :: l = [c] ++ l := rfl
      have hlines : indentLines indent (c :: l) = [c] ++ indentLines indent l := by
        rw [indentLines, List.flatMap_cons, if_neg (by simpa using hc)]
        rfl
      have hsingle : '\n' ∉ [c] := by simpa using Ne.symm hc
      refine ⟨c :: first, rest, ?_, ?_⟩
      · rw [htext, splitOn_append_of_notMem hsingle, hl]
        rfl
      · rw [hlines, splitOn_append_of_notMem hsingle, hindented]
        rfl

/-- A cause stands behind its label, and its further lines behind an indent. -/
theorem hasMargin_cause {label : List Char} (hone : '\n' ∉ label)
    (hlabel : label.head?.any isMargin = true) (width : Nat) (cause : List Char) :
    HasMargin (label ++ indentLines (List.replicate (width + 1) ' ') cause) := by
  have hindent : '\n' ∉ List.replicate (width + 1) ' ' := fun h => by
    cases List.eq_of_mem_replicate h
  obtain ⟨first, rest, _, hlines⟩ := splitOn_indentLines hindent cause
  intro piece hpiece
  rw [splitOn_append_of_notMem hone, hlines, List.modifyHead_cons, List.mem_cons,
    List.mem_map] at hpiece
  obtain rfl | ⟨line, _, rfl⟩ := hpiece
  · cases label with
    | nil => cases hlabel
    | cons c label => exact hlabel
  · rfl

/-! ## 2. Causes -/

theorem toDigits_head (n : Nat) : (Nat.toDigits 10 n).head?.any isMargin = true := by
  cases h : Nat.toDigits 10 n with
  | nil => exact absurd h Nat.toDigits_ne_nil
  | cons c digits =>
    have hdigit : c.isDigit = true :=
      Nat.isDigit_of_mem_toDigits (by decide) (Nat.le_refl 10) (h ▸ List.mem_cons_self)
    exact Bool.or_eq_true_iff.mpr (.inr hdigit)

theorem causeLabel_head (n : Nat) : (causeLabel n).head?.any isMargin = true := by
  have hdigits := toDigits_head n
  simp only [causeLabel]
  cases h : Nat.toDigits 10 n with
  | nil => exact absurd h Nat.toDigits_ne_nil
  | cons c digits =>
    rw [h] at hdigits
    cases 5 - (c :: digits).length with
    | zero => exact hdigits
    | succ width => rfl

theorem lineBreak_notMem_causeLabel (n : Nat) : '\n' ∉ causeLabel n := by
  simp only [causeLabel, List.mem_append, not_or]
  refine ⟨⟨fun h => ?_, notMem_toDigits rfl n⟩, by decide⟩
  cases List.eq_of_mem_replicate h

/-- Numbered causes begin on a new line and stand behind the margin. -/
theorem hasMargin_numberedCauses (n : Nat) (cause : String) (causes : List String) :
    ∃ body, HasMargin body ∧ numberedCauses n (cause :: causes) = '\n' :: body := by
  have hcause : HasMargin (causeLabel n ++ indentLines (List.replicate 7 ' ') cause.toList) :=
    hasMargin_cause (lineBreak_notMem_causeLabel n) (causeLabel_head n) 6 cause.toList
  induction causes generalizing n cause with
  | nil => exact ⟨_, hcause, List.append_nil _⟩
  | cons next causes ih =>
    obtain ⟨body, hbody, hnext⟩ := ih (n + 1) next (hasMargin_cause
      (lineBreak_notMem_causeLabel (n + 1)) (causeLabel_head (n + 1)) 6 next.toList)
    refine ⟨_, hcause.append_break hbody, ?_⟩
    rw [numberedCauses, hnext]
    rfl

/-- Behind the message of a failure that has causes stands a heading, and the causes. -/
theorem fullText_eq (f : Failure) : f.fullText = f.message ∨ ∃ body, HasMargin body ∧
    f.fullText = f.message ++ "\n" ++ ("" ++ "\n" ++
      ("Caused by:" ++ "\n" ++ String.ofList body)) := by
  have hheading : ∀ body, f.message ++ "\n\nCaused by:" ++ String.ofList ('\n' :: body) =
      f.message ++ "\n" ++ ("" ++ "\n" ++ ("Caused by:" ++ "\n" ++ String.ofList body)) := by
    intro body
    rw [← String.toList_inj]
    simp
  obtain ⟨message, causes⟩ := f
  match causes with
  | [] => exact .inl rfl
  | [cause] =>
    exact .inr ⟨_, hasMargin_cause (by decide) (by decide) 3 cause.toList, hheading _⟩
  | cause :: next :: causes =>
    obtain ⟨body, hbody, hcauses⟩ := hasMargin_numberedCauses 0 cause (next :: causes)
    refine .inr ⟨body, hbody, ?_⟩
    rw [fullText]
    dsimp only
    rw [hcauses]
    exact hheading body

/-- Whether a line is neither the heading of causes nor empty and begins without a margin. -/
structure IsFlush (line : String) : Prop where
  heading : line ≠ "Caused by:"
  nonempty : line ≠ ""
  head : line.toList.head?.any isMargin = false

theorem IsFlush.notMem_lines {line : String} (h : IsFlush line) {body : List Char}
    (hbody : HasMargin body) : line ∉ lines (String.ofList body) := by
  intro hline
  rw [lines, String.toList_ofList, List.mem_map] at hline
  obtain ⟨piece, hpiece, rfl⟩ := hline
  have hhead := h.head
  rw [String.toList_ofList, hbody piece hpiece] at hhead
  cases hhead

/-- A line without a margin stands in the text as often as in the message. -/
theorem count_lines_fullText {line : String} (h : IsFlush line) (f : Failure) :
    (lines f.fullText).count line = (lines f.message).count line := by
  obtain htext | ⟨body, hbody, htext⟩ := fullText_eq f
  · rw [htext]
  · have hother : line ∉ [""] ++ (["Caused by:"] ++ lines (String.ofList body)) := by
      simp [h.nonempty, h.heading, h.notMem_lines hbody]
    rw [htext, lines_break, lines_break, lines_break,
      lines_of_isOneLine (by decide : IsOneLine ""),
      lines_of_isOneLine (by decide : IsOneLine "Caused by:"), List.count_append,
      List.count_eq_zero_of_not_mem hother, Nat.add_zero]

end Failure

end SupervisedWorker
