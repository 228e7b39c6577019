import Mathlib.Data.List.Basic
import SupervisedWorker.Toml.Writer

/-!
# Texts read back

Whatever characters are in a text, the form that it is written in is one that the reader makes the
same text of. Behind the closing mark the reader stops, as long as no quote and no apostrophe
follows: over several lines up to two of them would be taken for a part of the text.

Results:
1. `Stands.of_escaped`: a character between quotes, as an escape or as it is.
2. `readBasic_basicBody`, `readLiteral_body`: texts on one line.
3. `readLongBasic_body`, `readLongLiteral_body`: texts over several lines. The marks that the reader
   has not come past yet are part of the induction, since it looks at three of them at once.
4. `readText_writeText`: all forms.
-/

namespace SupervisedWorker

namespace Toml

/-! ## 1. Characters between quotes -/

/-- How a character can be written between quotes. -/
inductive Stands (c : Char) : List Char → Prop
  | escape {code : List Char} : (∀ rest, readEscape (code ++ rest) = some (c, rest)) →
      (∀ rest, lineBreak ((code ++ rest).dropWhile isSpace) = none) → Stands c ('\\' :: code)
  | plain : isControl c = false → c ≠ '\\' → c ≠ '"' → Stands c [c]

theorem toNat_lt_of_isControl {c : Char} (hc : isControl c = true) : c.toNat < 128 := by
  simp [isControl] at hc
  omega

/-- A control is written as a code point of four digits. -/
theorem unicodeEscape_control {c : Char} (hc : isControl c = true) :
    ∃ ds, unicodeEscape c.toNat = '\\' :: 'u' :: ds ∧ ds.length = 4 ∧ codePoint ds = some c := by
  have hall : ∀ n : Fin 128, isControl (Char.ofNat n) = true →
      unicodeEscape n = '\\' :: 'u' :: (unicodeEscape n).drop 2 ∧
        ((unicodeEscape n).drop 2).length = 4 ∧
          codePoint ((unicodeEscape n).drop 2) = some (Char.ofNat n) := by
    decide +kernel
  have h := hall ⟨c.toNat, toNat_lt_of_isControl hc⟩
  rw [Char.ofNat_toNat] at h
  exact ⟨_, h hc⟩

theorem Stands.of_control {c : Char} (hc : isControl c = true) :
    Stands c (unicodeEscape c.toNat) := by
  obtain ⟨ds, heq, hlength, hpoint⟩ := unicodeEscape_control hc
  rw [heq]
  refine .escape (fun rest => ?_) fun rest => rfl
  rw [List.cons_append, readEscape, if_pos (by simp [hlength]), List.take_left' hlength,
    List.drop_left' hlength, hpoint]
  rfl

/-- What is written for a character that is no quote and no line break. -/
theorem Stands.of_escaped {c : Char} (hquote : c ≠ '"') : Stands c (escaped c) := by
  unfold escaped
  split
  · exact .escape (fun _ => rfl) fun _ => rfl
  · exact .escape (fun _ => rfl) fun _ => rfl
  · exact .escape (fun _ => rfl) fun _ => rfl
  · exact .escape (fun _ => rfl) fun _ => rfl
  · exact .escape (fun _ => rfl) fun _ => rfl
  · rename_i hbackslash
    split
    · rename_i hcontrol
      exact .of_control hcontrol
    · rename_i hcontrol
      exact .plain (Bool.eq_false_iff.mpr hcontrol) hbackslash hquote

theorem Stands.quote : Stands '"' ['\\', '"'] := .escape (fun _ => rfl) fun _ => rfl

theorem Stands.break : Stands '\n' ['\\', 'n'] := .escape (fun _ => rfl) fun _ => rfl

/-- What stands for a character begins with neither a quote nor a line break. -/
theorem Stands.head {c : Char} {piece : List Char} (h : Stands c piece) :
    ∃ d rest, piece = d :: rest ∧ d ≠ '"' ∧ d ≠ '\n' ∧ d ≠ '\r' := by
  cases h with
  | escape => exact ⟨_, _, rfl, by decide, by decide, by decide⟩
  | plain hcontrol hbackslash hquote =>
    refine ⟨c, [], rfl, hquote, ?_, ?_⟩
    · rintro rfl
      cases hcontrol
    · rintro rfl
      cases hcontrol

/-! ## 2. On one line -/

variable {c mark : Char} {s rest text piece : List Char}

theorem readBasic_stands (h : Stands c piece) (s : List Char) :
    readBasic (piece ++ s) = before c (readBasic s) := by
  cases h with
  | escape hread =>
    rw [List.cons_append, readBasic]
    split
    · rename_i heq
      rw [hread] at heq
      cases heq
      rfl
    · rename_i heq
      cases heq.symm.trans (hread s)
  | plain hcontrol hbackslash hquote =>
    rw [List.cons_append, List.nil_append, readBasic, if_neg (by simp [hcontrol])]
    · exact hquote
    · exact hbackslash

theorem stands_basic (c : Char) : Stands c
    (if c == '"' then ['\\', '"'] else if c == '\n' then ['\\', 'n'] else escaped c) := by
  by_cases hquote : c = '"'
  · subst hquote
    exact .quote
  by_cases hbreak : c = '\n'
  · subst hbreak
    exact .break
  rw [if_neg (by simpa using hquote), if_neg (by simpa using hbreak)]
  exact .of_escaped hquote

theorem readBasic_basicBody (s rest : List Char) :
    readBasic (basicBody s ++ '"' :: rest) = some (s, rest) := by
  induction s with
  | nil => rw [basicBody, List.nil_append, readBasic]
  | cons c s ih =>
    rw [basicBody, List.append_assoc, readBasic_stands (stands_basic c), ih]
    rfl

theorem readLiteral_body (h : ∀ c ∈ s, c ≠ '\'' ∧ isControl c = false) (rest : List Char) :
    readLiteral (s ++ '\'' :: rest) = some (s, rest) := by
  induction s with
  | nil => rfl
  | cons c s ih =>
    obtain ⟨⟨hmark, hcontrol⟩, hs⟩ := List.forall_mem_cons.mp h
    rw [List.cons_append, readLiteral, if_neg (by simpa using hmark), if_neg (by simp [hcontrol]),
      ih hs]
    rfl

/-! ## 3. Over several lines -/

/-- Up to two marks. -/
def marks (mark : Char) (n : Nat) : List Char := List.replicate n mark

theorem closing_eq_none (h : ¬[mark, mark, mark] <+: s) : closing mark s = none := by
  have hthree : ∀ {a b c : Char} {rest : List Char}, s = a :: b :: c :: rest →
      [a, b, c] ≠ [mark, mark, mark] := by
    rintro a b c rest rfl heq
    exact h (heq ▸ ⟨rest, rfl⟩)
  unfold closing
  split
  · exact if_pos (hthree rfl)
  · exact if_pos (hthree rfl)
  · exact if_pos (hthree rfl)
  · rfl

theorem closing_marks {n : Nat} (hn : n ≤ 2) (hrest : ∀ c ∈ rest.head?, c ≠ mark) :
    closing mark (marks mark n ++ mark :: mark :: mark :: rest) = some (marks mark n, rest) := by
  rcases rest with _ | ⟨a, _ | ⟨b, rest⟩⟩
  all_goals
    obtain rfl | rfl | rfl : n = 0 ∨ n = 1 ∨ n = 2 := by omega
    all_goals simp [closing, marks, List.replicate_succ] at hrest ⊢ <;> simp [hrest]

theorem not_marks_prefix {n : Nat} (hn : n ≤ 2) (hs : ∀ c ∈ s.head?, c ≠ mark) :
    ¬[mark, mark, mark] <+: marks mark n ++ s := by
  obtain rfl | rfl | rfl : n = 0 ∨ n = 1 ∨ n = 2 := by omega
  all_goals
    rcases s with _ | ⟨c, s⟩
    · simp [marks, List.replicate_succ]
    · simp at hs
      simp [marks, List.replicate_succ, List.cons_prefix_cons, Ne.symm hs]

theorem readLongBasic_cons (h : ¬['"', '"', '"'] <+: c :: s) (hbackslash : c ≠ '\\')
    (hcontrol : isControl c = false ∨ c = '\n') :
    readLongBasic (c :: s) = before c (readLongBasic s) := by
  have hreturn : c ≠ '\r' := by
    rintro rfl
    simp [isControl] at hcontrol
  rw [readLongBasic.eq_def, closing_eq_none h]
  dsimp only
  split
  · rename_i heq
    cases heq
  · rename_i heq
    cases heq
    exact absurd rfl hbackslash
  · rename_i heq
    cases heq
    exact absurd rfl hreturn
  · rename_i heq
    cases heq
    refine if_neg ?_
    rcases hcontrol with hcontrol | rfl
    · simp [hcontrol]
    · simp

theorem readLongBasic_stands (h : Stands c piece) (s : List Char) :
    readLongBasic (piece ++ s) = before c (readLongBasic s) := by
  cases h with
  | @escape code hread hbreak =>
    have hnone : ¬['"', '"', '"'] <+: '\\' :: (code ++ s) := by
      rw [List.cons_prefix_cons]
      exact fun h => absurd h.1 (by decide)
    rw [List.cons_append, readLongBasic.eq_def, closing_eq_none hnone]
    dsimp only
    split
    · rename_i heq
      cases heq
    · rename_i heq
      cases heq
      rw [hbreak]
      dsimp only
      split
      · rename_i heq
        rw [hread] at heq
        cases heq
        rfl
      · rename_i heq
        cases heq.symm.trans (hread s)
    · rename_i heq
      cases heq
    · rename_i hother _ heq
      cases heq
      exact (hother rfl).elim
  | plain hcontrol hbackslash hquote =>
    refine readLongBasic_cons ?_ hbackslash (.inl hcontrol)
    rw [List.cons_prefix_cons]
    exact fun h => hquote h.1.symm

/-- Marks that no third one follows are read as they are, if a single one is. -/
theorem read_marks {read : List Char → Option (List Char × List Char)}
    (hread : ∀ s, ¬[mark, mark, mark] <+: mark :: s → read (mark :: s) = before mark (read s))
    {n : Nat} (hn : n ≤ 2) (hs : ∀ c ∈ s.head?, c ≠ mark) (h : read s = some (text, rest)) :
    read (marks mark n ++ s) = some (marks mark n ++ text, rest) := by
  induction n with
  | zero => exact h
  | succ n ih =>
    have hnone := not_marks_prefix hn hs
    rw [marks, List.replicate_succ, List.cons_append] at hnone ⊢
    rw [hread _ hnone, ← marks, ih (by omega)]
    rfl

theorem marks_append_cons (mark : Char) (n : Nat) (s : List Char) :
    marks mark n ++ mark :: s = marks mark (n + 1) ++ s := by
  rw [marks, marks, List.replicate_succ', List.append_assoc]
  rfl

/-- The reader gets the text back that was written behind some quotes, and the quotes. The induction
is on the text, and the quotes are those that no character has followed yet. -/
theorem readLongBasic_body (hrest : ∀ c ∈ rest.head?, c ≠ '"') {n : Nat} (hn : n ≤ 2)
    (s : List Char) :
    readLongBasic (marks '"' n ++ (longBasicBody n s ++ '"' :: '"' :: '"' :: rest)) =
      some (marks '"' n ++ s, rest) := by
  have hsingle : ∀ s, ¬['"', '"', '"'] <+: '"' :: s →
      readLongBasic ('"' :: s) = before '"' (readLongBasic s) :=
    fun s hnone => readLongBasic_cons hnone (by decide) (.inl (by decide))
  induction s generalizing n with
  | nil =>
    rw [longBasicBody, List.nil_append, readLongBasic.eq_def, closing_marks hn hrest,
      List.append_nil]
  | cons c s ih =>
    have hnext := ih (Nat.zero_le 2)
    rw [marks, List.replicate_zero, List.nil_append, List.nil_append] at hnext
    rw [longBasicBody]
    by_cases hquote : c = '"'
    · subst hquote
      rw [if_pos (by rfl)]
      split
      · rename_i hlt
        rw [List.cons_append, marks_append_cons, marks_append_cons]
        exact ih hlt
      · -- A third quote in a row is written as an escape, which ends the row.
        refine read_marks hsingle hn (by simp) ?_
        rw [List.cons_append, List.cons_append,
          show ∀ s, '\\' :: '"' :: s = ['\\', '"'] ++ s from fun _ => rfl,
          readLongBasic_stands .quote, hnext]
        rfl
    rw [if_neg (by simpa using hquote)]
    by_cases hbreak : c = '\n'
    · subst hbreak
      rw [if_pos (by rfl)]
      refine read_marks hsingle hn (by simp) ?_
      rw [List.cons_append, readLongBasic_cons ?_ (by decide) (.inr rfl), hnext]
      · rfl
      · rw [List.cons_prefix_cons]
        exact fun h => absurd h.1 (by decide)
    · rw [if_neg (by simpa using hbreak), List.append_assoc]
      have hstands : Stands c (escaped c) := .of_escaped hquote
      refine read_marks hsingle hn ?_ ?_
      · obtain ⟨d, piece, hpiece, hd, -⟩ := hstands.head
        rw [hpiece]
        rintro _ ⟨⟩
        exact hd
      · rw [readLongBasic_stands hstands, hnext]
        rfl

theorem readLongLiteral_cons (h : ¬['\'', '\'', '\''] <+: c :: s)
    (hcontrol : isControl c = false ∨ c = '\n') :
    readLongLiteral (c :: s) = before c (readLongLiteral s) := by
  have hreturn : c ≠ '\r' := by
    rintro rfl
    simp [isControl] at hcontrol
  rw [readLongLiteral.eq_def, closing_eq_none h]
  dsimp only
  split
  · rename_i heq
    cases heq
  · rename_i heq
    cases heq
    exact absurd rfl hreturn
  · rename_i heq
    cases heq
    refine if_neg ?_
    rcases hcontrol with hcontrol | rfl
    · simp [hcontrol]
    · simp

theorem le_longestRun (mark : Char) (n : Nat) (s : List Char) : n ≤ longestRun mark n s := by
  induction s generalizing n with
  | nil => exact Nat.le_refl n
  | cons c s ih =>
    rw [longestRun]
    split
    · exact Nat.le_trans (Nat.le_succ n) (ih (n + 1))
    · exact Nat.le_max_left _ _

/-- The same for apostrophes, of which no three come together. -/
theorem readLongLiteral_body (hrest : ∀ c ∈ rest.head?, c ≠ '\'') {n : Nat} {s : List Char}
    (hrun : longestRun '\'' n s ≤ 2) (hs : ∀ c ∈ s, isControl c = false ∨ c = '\n') :
    readLongLiteral (marks '\'' n ++ (s ++ '\'' :: '\'' :: '\'' :: rest)) =
      some (marks '\'' n ++ s, rest) := by
  have hsingle : ∀ s, ¬['\'', '\'', '\''] <+: '\'' :: s →
      readLongLiteral ('\'' :: s) = before '\'' (readLongLiteral s) :=
    fun s hnone => readLongLiteral_cons hnone (.inl (by decide))
  induction s generalizing n with
  | nil =>
    have hn : n ≤ 2 := hrun
    rw [List.nil_append, readLongLiteral.eq_def, closing_marks hn hrest, List.append_nil]
  | cons c s ih =>
    have hn : n ≤ 2 := Nat.le_trans (le_longestRun _ _ _) hrun
    obtain ⟨hc, hs'⟩ := List.forall_mem_cons.mp hs
    rw [longestRun] at hrun
    by_cases hmark : c = '\''
    · subst hmark
      rw [if_pos (by rfl)] at hrun
      rw [List.cons_append, marks_append_cons, marks_append_cons]
      exact ih hrun hs'
    · rw [if_neg (by simpa using hmark)] at hrun
      have hnext := ih (Nat.le_trans (Nat.le_max_right _ _) hrun) hs'
      rw [marks, List.replicate_zero, List.nil_append, List.nil_append] at hnext
      refine read_marks hsingle hn (by simpa using hmark) ?_
      rw [List.cons_append, readLongLiteral_cons ?_ hc, hnext]
      · rfl
      · rw [List.cons_prefix_cons]
        exact fun h => hmark h.1.symm

/-! ## 4. All forms -/

theorem notMem_of_longestRun {n : Nat} (h : longestRun mark n s = 0) : mark ∉ s := by
  induction s generalizing n with
  | nil => exact List.not_mem_nil
  | cons c s ih =>
    rw [longestRun] at h
    by_cases hmark : c = mark
    · rw [if_pos (by simpa using hmark)] at h
      have hpos := le_longestRun mark (n + 1) s
      omega
    · rw [if_neg (by simpa using hmark)] at h
      rw [List.mem_cons, not_or]
      exact ⟨Ne.symm hmark, ih (Nat.max_eq_zero_iff.mp h).2⟩

theorem control_not_plain (hc : isControl c = true) : isPlain c = false := by
  have hall : ∀ n : Fin 128, isControl (Char.ofNat n) = true → isPlain (Char.ofNat n) = false := by
    decide +kernel
  have h := hall ⟨c.toNat, toNat_lt_of_isControl hc⟩
  rw [Char.ofNat_toNat] at h
  exact h hc

theorem escaped_of_plain (h : isPlain c = true) : escaped c = [c] := by
  unfold escaped
  split
  · cases h
  · cases h
  · cases h
  · cases h
  · cases h
  · refine if_neg fun hcontrol => ?_
    rw [control_not_plain hcontrol] at h
    cases h

/-- Plain characters need no escapes. -/
theorem basicBody_of_plain (h : s.all isPlain = true) : basicBody s = s := by
  induction s with
  | nil => rfl
  | cons c s ih =>
    rw [List.all_cons, Bool.and_eq_true] at h
    have hquote : c ≠ '"' := by
      rintro rfl
      cases h.1
    have hbreak : c ≠ '\n' := by
      rintro rfl
      cases h.1
    rw [basicBody, if_neg (by simpa using hquote), if_neg (by simpa using hbreak),
      escaped_of_plain h.1, ih h.2]
    rfl

theorem lineBreak_eq_none (h : ∀ c ∈ s.head?, c ≠ '\n' ∧ c ≠ '\r') : lineBreak s = none := by
  unfold lineBreak
  split
  · exact absurd rfl (h _ rfl).1
  · exact absurd rfl (h _ rfl).2
  · rfl

/-- The first line break goes, and if there is none then nothing does. -/
theorem dropFirstBreak_firstBreak {body : List Char}
    (h : '\n' ∉ s → ∀ c ∈ body.head?, c ≠ '\n' ∧ c ≠ '\r') :
    dropFirstBreak (firstBreak s ++ body) = body := by
  rw [firstBreak]
  split
  · rfl
  · rename_i hbreak
    rw [List.nil_append, dropFirstBreak, lineBreak_eq_none (h (by simpa using hbreak))]
    rfl

theorem head_longBasicBody (hs : '\n' ∉ s) (rest : List Char) :
    ∀ c ∈ (longBasicBody 0 s ++ '"' :: rest).head?, c ≠ '\n' ∧ c ≠ '\r' := by
  rcases s with _ | ⟨c, s⟩
  · rintro _ ⟨⟩
    decide
  · rw [List.mem_cons, not_or] at hs
    rw [longBasicBody]
    by_cases hquote : c = '"'
    · subst hquote
      rintro _ ⟨⟩
      decide
    · obtain ⟨d, piece, hpiece, -, hd⟩ := (Stands.of_escaped hquote).head
      rw [if_neg (by simpa using hquote), if_neg (by simpa using Ne.symm hs.1), hpiece]
      rintro _ ⟨⟩
      exact hd

theorem head_literal (hlines : '\n' ∉ s) (hs : ∀ c ∈ s, isControl c = false ∨ c = '\n')
    (rest : List Char) : ∀ c ∈ (s ++ '\'' :: rest).head?, c ≠ '\n' ∧ c ≠ '\r' := by
  rcases s with _ | ⟨c, s⟩
  · rintro _ ⟨⟩
    decide
  · rintro _ ⟨⟩
    have hbreak : c ≠ '\n' := fun h => hlines (h ▸ List.mem_cons_self)
    refine ⟨hbreak, ?_⟩
    rintro rfl
    cases (hs '\r' List.mem_cons_self).resolve_right hbreak

theorem readText_quote (h : ¬['"', '"'] <+: s) : readText ('"' :: s) = readBasic s := by
  unfold readText
  split
  · rename_i heq
    cases heq
    exact absurd ⟨_, rfl⟩ h
  · rename_i heq
    cases heq
  · rename_i heq
    cases heq
    rfl
  · rename_i heq
    cases heq
  · rename_i hother _
    exact (hother _ rfl).elim

theorem readText_apostrophe (h : ¬['\'', '\''] <+: s) : readText ('\'' :: s) = readLiteral s := by
  unfold readText
  split
  · rename_i heq
    cases heq
  · rename_i heq
    cases heq
    exact absurd ⟨_, rfl⟩ h
  · rename_i heq
    cases heq
  · rename_i heq
    cases heq
    rfl
  · rename_i hother
    exact (hother _ rfl).elim

theorem readText_basic (hrest : ∀ c ∈ rest.head?, c ≠ '"') (s : List Char) :
    readText ('"' :: (basicBody s ++ '"' :: rest)) = some (s, rest) := by
  rw [readText_quote, readBasic_basicBody]
  rcases s with _ | ⟨c, s⟩
  · rw [basicBody, List.nil_append, List.cons_prefix_cons]
    rintro ⟨-, h⟩
    obtain ⟨rest', rfl⟩ := h
    exact hrest '"' rfl rfl
  · obtain ⟨d, piece, hpiece, hd, -⟩ := (stands_basic c).head
    rw [basicBody, hpiece, List.cons_append, List.cons_append, List.cons_prefix_cons]
    exact fun h => hd h.1.symm

theorem readText_literal (hs : ∀ c ∈ s, c ≠ '\'' ∧ isControl c = false)
    (hrest : ∀ c ∈ rest.head?, c ≠ '\'') :
    readText ('\'' :: (s ++ '\'' :: rest)) = some (s, rest) := by
  rw [readText_apostrophe, readLiteral_body hs]
  rcases s with _ | ⟨c, s⟩
  · rw [List.nil_append, List.cons_prefix_cons]
    rintro ⟨-, h⟩
    obtain ⟨rest', rfl⟩ := h
    exact hrest '\'' rfl rfl
  · rw [List.cons_append, List.cons_prefix_cons]
    exact fun h => (hs c List.mem_cons_self).1 h.1.symm

/-- The forms in apostrophes are for texts that need no escapes. -/
theorem TextForm.of_eq_literal (h : TextForm.of s = .literal) :
    ∀ c ∈ s, c ≠ '\'' ∧ isControl c = false := by
  unfold TextForm.of at h
  dsimp only at h
  split_ifs at h with _ hliteral
  simp only [Bool.and_eq_true, Bool.not_eq_true', List.any_eq_false, beq_iff_eq] at hliteral
  obtain ⟨⟨hcodes, hlines⟩, hrun⟩ := hliteral
  intro c hc
  have hbreak : c ≠ '\n' := by
    rintro rfl
    simp [hc] at hlines
  refine ⟨?_, by simpa [hbreak] using hcodes c hc⟩
  rintro rfl
  exact notMem_of_longestRun hrun hc

theorem TextForm.of_eq_longLiteral (h : TextForm.of s = .longLiteral) :
    longestRun '\'' 0 s ≤ 2 ∧ ∀ c ∈ s, isControl c = false ∨ c = '\n' := by
  unfold TextForm.of at h
  dsimp only at h
  split_ifs at h with _ _ _ hliteral
  simp only [Bool.and_eq_true, Bool.not_eq_true', List.any_eq_false, decide_eq_true_eq] at hliteral
  obtain ⟨hcodes, hrun⟩ := hliteral
  refine ⟨hrun, fun c hc => ?_⟩
  have hcode := hcodes c hc
  rw [bne_iff_ne, not_and, not_ne_iff] at hcode
  by_cases hcontrol : isControl c = true
  · exact .inr (hcode hcontrol)
  · exact .inl (Bool.eq_false_iff.mpr hcontrol)

/-- A text is read back from what is written for it, whatever characters it has. -/
theorem readText_writeText (s : List Char)
    (hrest : ∀ c ∈ rest.head?, c ≠ '"' ∧ c ≠ '\'') :
    readText (writeText s ++ rest) = some (s, rest) := by
  have hquote : ∀ c ∈ rest.head?, c ≠ '"' := fun c hc => (hrest c hc).1
  have hapostrophe : ∀ c ∈ rest.head?, c ≠ '\'' := fun c hc => (hrest c hc).2
  rw [writeText]
  by_cases hplain : s.all isPlain = true
  · -- A plain text is its own form between quotes.
    have hbasic := readText_basic hquote s
    rw [basicBody_of_plain hplain] at hbasic
    rw [if_pos hplain, List.cons_append, List.cons_append, List.append_assoc]
    exact hbasic
  rw [if_neg hplain]
  cases hform : TextForm.of s with
  | basic =>
    simp only [List.cons_append, List.append_assoc]
    exact readText_basic hquote s
  | literal =>
    simp only [List.cons_append, List.append_assoc]
    exact readText_literal (TextForm.of_eq_literal hform) hapostrophe
  | longBasic =>
    have hread := readLongBasic_body hquote (Nat.zero_le 2) s
    have hbreak := dropFirstBreak_firstBreak (s := s) fun hs => head_longBasicBody hs
      ('"' :: '"' :: rest)
    simp only [List.cons_append, List.append_assoc, List.nil_append]
    rw [readText, hbreak]
    exact hread
  | longLiteral =>
    obtain ⟨hrun, hs⟩ := TextForm.of_eq_longLiteral hform
    have hread := readLongLiteral_body (n := 0) hapostrophe hrun hs
    have hbreak := dropFirstBreak_firstBreak fun hlines => head_literal hlines hs
      ('\'' :: '\'' :: rest)
    simp only [List.cons_append, List.append_assoc, List.nil_append]
    rw [readText, hbreak]
    exact hread

end Toml

end SupervisedWorker
