import SupervisedWorker.Proofs.Number.Numeral
import SupervisedWorker.Proofs.Toml.Distinct
import SupervisedWorker.Proofs.Toml.Texts

/-!
# Documents read back

What is written for sections of keys and values is read as the same sections, as long as no section
and no key of a section comes twice. The one thing that the writer writes and the reader refuses is
a number that does not fit 64 bits with a sign.

Results:
1. `scalar_toDigits`: numbers.
2. `readValue_chars`: values.
3. `readLine_header`, `readLine_key`: lines.
4. `readLines_section`, `read_write`: sections and whole documents.
-/

namespace SupervisedWorker

namespace Toml

/-! ## 1. Numbers -/

variable {s rest word : List Char} {c : Char}

theorem digitRun_digits (h : ∀ c ∈ s, c.isDigit = true) :
    digitRun Char.isDigit true s = some s := by
  induction s with
  | nil => rfl
  | cons c s ih =>
    obtain ⟨hc, hs⟩ := List.forall_mem_cons.mp h
    rw [digitRun, if_pos hc, ih hs]
    rfl

/-- The digits of a number are digits without a needless zero. -/
theorem wholeDigits_toDigits (n : Nat) :
    wholeDigits (Nat.toDigits 10 n) = some (Nat.toDigits 10 n) := by
  have hdigits := Numeral.all_isDigit_toDigits n
  have hrun : digitRun Char.isDigit false (Nat.toDigits 10 n) = some (Nat.toDigits 10 n) := by
    cases hcons : Nat.toDigits 10 n with
    | nil => exact absurd hcons Nat.toDigits_ne_nil
    | cons c s =>
      rw [hcons] at hdigits
      obtain ⟨hc, hs⟩ := List.forall_mem_cons.mp hdigits
      rw [digitRun, if_pos hc, digitRun_digits hs]
      rfl
  rw [wholeDigits, hrun]
  split
  · rename_i c s heq
    have hzero : n = 0 := by
      by_contra hn
      exact Numeral.head_toDigits hn '0' (by rw [Option.some.inj heq]; rfl) rfl
    rw [hzero] at heq
    cases heq
  · rfl

namespace Moment

theorem mark_eq_none (h : c ∉ s) : mark c s = none := by
  cases s with
  | nil => rfl
  | cons d s =>
    rw [List.mem_cons, not_or] at h
    rw [mark, if_neg (by simpa using h.1)]

theorem digits_mark_eq_none (count : Nat) (h : c ∉ s) :
    ((digits count s).bind fun x => mark c x.2) = none := by
  rw [digits]
  split
  · exact mark_eq_none fun hmem => h (List.mem_of_mem_drop hmem)
  · rfl

theorem date_eq_none (h : '-' ∉ s) : date s = none := by
  have hmark := digits_mark_eq_none 4 h
  rw [date]
  cases hdigits : digits 4 s with
  | none => rfl
  | some x =>
    rw [hdigits, Option.bind_some] at hmark
    simp [hmark]

theorem time_eq_none (h : ':' ∉ s) : time s = none := by
  have hmark := digits_mark_eq_none 2 h
  rw [time]
  cases hdigits : digits 2 s with
  | none => rfl
  | some x =>
    rw [hdigits, Option.bind_some] at hmark
    simp [hmark]

theorem normal_eq_none (hdate : '-' ∉ s) (htime : ':' ∉ s) : normal s = none := by
  rw [normal, date_eq_none hdate, time_eq_none htime]

end Moment

theorem notMem_of_isDigit (h : ∀ c ∈ s, c.isDigit = true) (hc : c.isDigit = false) : c ∉ s := by
  intro hmem
  rw [h c hmem] at hc
  cases hc

theorem integer_toDigits (n : Nat) : integer (Nat.toDigits 10 n) = Numeral.signed64 n := by
  have hdigits := Numeral.all_isDigit_toDigits n
  have hletter : ∀ {c d : Char} {s : List Char}, Nat.toDigits 10 n = c :: d :: s →
      d.isDigit = false → False := by
    intro c d s heq hd
    exact notMem_of_isDigit hdigits hd (heq ▸ by simp)
  unfold integer
  split
  · rename_i heq
    exact (hletter heq rfl).elim
  · rename_i heq
    exact (hletter heq rfl).elim
  · rename_i heq
    exact (hletter heq rfl).elim
  · rw [Numeral.splitSign_of_digit hdigits]
    dsimp only
    rw [wholeDigits_toDigits, Option.bind_some, Numeral.ofDigits_toDigits]
    rfl

theorem decimal_toDigits (n : Nat) : decimal (Nat.toDigits 10 n) = none := by
  have hdigits := Numeral.all_isDigit_toDigits n
  have hends : ∀ c ∈ Nat.toDigits 10 n, (!endsDigits c) = true := by
    intro c hc
    have hne : ∀ d : Char, d.isDigit = false → c ≠ d := by
      rintro d hd rfl
      exact notMem_of_isDigit hdigits hd hc
    simp [endsDigits, hne '.' rfl, hne 'e' rfl, hne 'E' rfl]
  have hword : ∀ word : List Char, 'n' ∈ word → Nat.toDigits 10 n ≠ word := by
    rintro word hword rfl
    exact notMem_of_isDigit hdigits rfl hword
  rw [decimal, Numeral.splitSign_of_digit hdigits]
  -- Nothing ends the digits before the text does, so neither a point nor an exponent is left.
  simp only [if_neg (hword "inf".toList (by decide)), if_neg (hword "nan".toList (by decide)),
    List.dropWhile_eq_nil_iff.mpr hends]
  cases wholeDigits ((Nat.toDigits 10 n).takeWhile (!endsDigits ·)) <;> rfl

/-- A number is read back if it fits 64 bits with a sign, and refused otherwise. -/
theorem scalar_toDigits (n : Nat) :
    scalar (Nat.toDigits 10 n) = if n < 2 ^ 63 then some (.integer n) else none := by
  have hdigits := Numeral.all_isDigit_toDigits n
  have hword : ∀ word : List Char, 'e' ∈ word → Nat.toDigits 10 n ≠ word := by
    rintro word hword rfl
    exact notMem_of_isDigit hdigits rfl hword
  rw [scalar, if_neg (hword _ (by decide)), if_neg (hword _ (by decide)),
    Moment.normal_eq_none (notMem_of_isDigit hdigits rfl) (notMem_of_isDigit hdigits rfl),
    integer_toDigits, decimal_toDigits, Numeral.signed64]
  by_cases hn : n < 2 ^ 63
  · rw [if_pos hn, if_pos (by simp; omega)]
  · rw [if_neg hn, if_neg (by simp; omega)]
    rfl

/-! ## 2. Values -/

/-- What a written value stands for. -/
def Written.value : Written → Value
  | .number n => .integer n
  | .boolean b => .boolean b
  | .text s => .text s
  | .texts items => .list (items.map .text)

/-- The number fits 64 bits with a sign, or the value is no number. -/
def Written.IsReadable : Written → Prop
  | .number n => n < 2 ^ 63
  | _ => True

instance (w : Written) : Decidable w.IsReadable :=
  match w with
  | .number n => inferInstanceAs (Decidable (n < 2 ^ 63))
  | .boolean _ | .text _ | .texts _ => .isTrue trivial

theorem readScalar_word (h : ∀ c ∈ word, isWordChar c = true) (rest : List Char) :
    readScalar (word ++ '\n' :: rest) = (scalar word).map (·, '\n' :: rest) := by
  have hspan : (word ++ '\n' :: rest).span isWordChar = (word, '\n' :: rest) := by
    rw [List.span_eq_takeWhile_dropWhile, List.takeWhile_append_of_pos h,
      List.dropWhile_append_of_pos h]
    simp [show isWordChar '\n' = false by decide]
  rw [readScalar, hspan]
  dsimp only
  split
  · rename_i heq
    cases heq
  · rfl

theorem readValue_word (room : Nat) (hne : word ≠ []) (h : ∀ c ∈ word, isWordChar c = true)
    (rest : List Char) :
    readValue room (word ++ '\n' :: rest) = (scalar word).map (·, '\n' :: rest) := by
  have hhead : ∀ {d : Char} {s : List Char}, word ++ '\n' :: rest = d :: s →
      isWordChar d = true := by
    intro d s heq
    cases word with
    | nil => exact absurd rfl hne
    | cons c word => exact (List.cons.inj heq).1 ▸ h c List.mem_cons_self
  rw [← readScalar_word h, readValue.eq_def]
  dsimp only
  split
  · rename_i heq
    cases hhead heq
  · rename_i heq
    cases hhead heq
  · rename_i heq
    cases hhead heq
  · rename_i heq
    cases hhead heq
  · rfl

/-- Every written text begins with its mark. -/
theorem head_writeText (s : List Char) :
    ∃ tail, writeText s = '"' :: tail ∨ writeText s = '\'' :: tail := by
  rw [writeText]
  split
  · exact ⟨_, .inl rfl⟩
  · split
    · exact ⟨_, .inl rfl⟩
    · exact ⟨_, .inr rfl⟩
    · exact ⟨_, .inl rfl⟩
    · exact ⟨_, .inr rfl⟩

theorem readValue_text (room : Nat) (s : String) (hrest : ∀ c ∈ rest.head?, c ≠ '"' ∧ c ≠ '\'') :
    readValue room (writeText s.toList ++ rest) = some (.text s, rest) := by
  have hread := readText_writeText s.toList hrest
  obtain ⟨tail, hhead | hhead⟩ := head_writeText s.toList
  · rw [hhead, List.cons_append] at hread ⊢
    rw [readValue, hread]
    simp
  · rw [hhead, List.cons_append] at hread ⊢
    rw [readValue, hread]
    simp

/-! ### Lists -/

/-- The text begins with something that is no blank, no line break and no comment. -/
def IsSolid (s : List Char) : Prop := ∃ c tail, s = c :: tail ∧ c ∉ [' ', '\t', '\n', '\r', '#']

theorem isSolid_cons {p : Char → Bool}
    (hp : [' ', '\t', '\n', '\r', '#'].all (fun d => !p d) = true) (hc : p c = true)
    (s : List Char) : IsSolid (c :: s) := by
  refine ⟨c, s, rfl, fun hmem => ?_⟩
  have hnot := List.all_eq_true.mp hp c hmem
  rw [hc] at hnot
  cases hnot

theorem isSolid_writeText (s rest : List Char) : IsSolid (writeText s ++ rest) := by
  obtain ⟨tail, hhead | hhead⟩ := head_writeText s
  · exact ⟨_, _, by rw [hhead, List.cons_append], by decide⟩
  · exact ⟨_, _, by rw [hhead, List.cons_append], by decide⟩

theorem writeText_ne_bracket (s rest : List Char) : (writeText s ++ rest).head? ≠ some ']' := by
  obtain ⟨tail, hhead | hhead⟩ := head_writeText s <;>
    · rw [hhead]
      rintro ⟨⟩

theorem IsSolid.dropSpace (h : IsSolid s) : dropSpace s = s := by
  obtain ⟨c, tail, rfl, hc⟩ := h
  simp only [List.mem_cons, List.not_mem_nil, or_false, not_or] at hc
  rw [Toml.dropSpace, List.dropWhile_cons_of_neg (by simp [isSpace, hc])]

/-- Nothing but the blanks in front of it is dropped. -/
theorem dropFill_of_solid (h : IsSolid (dropSpace s)) : dropFill s = dropSpace s := by
  obtain ⟨c, tail, hspace, hc⟩ := h
  simp only [List.mem_cons, List.not_mem_nil, or_false, not_or] at hc
  have hcomment : dropComment (c :: tail) = c :: tail := by
    unfold dropComment
    split
    · rename_i heq
      exact absurd (List.cons.inj heq).1 hc.2.2.2.2
    · rfl
  have hbreak : lineBreak (c :: tail) = none := by
    refine lineBreak_eq_none ?_
    rintro _ ⟨⟩
    exact ⟨hc.2.2.1, hc.2.2.2.1⟩
  rw [dropFill]
  simp only [hspace, hcomment, hbreak]

theorem IsSolid.dropFill (h : IsSolid s) : dropFill s = s := by
  have hspace := h.dropSpace
  rw [dropFill_of_solid (hspace.symm ▸ h), hspace]

theorem dropFill_indent (h : IsSolid s) : dropFill ("    ".toList ++ s) = s := by
  have hspace : dropSpace ("    ".toList ++ s) = s := h.dropSpace
  rw [dropFill_of_solid (hspace.symm ▸ h), hspace]

theorem dropFill_break (s : List Char) : dropFill ('\n' :: s) = dropFill s := by
  have hspace : dropSpace ('\n' :: s) = '\n' :: s := rfl
  rw [dropFill]
  simp only [hspace, show dropComment ('\n' :: s) = '\n' :: s from rfl,
    show lineBreak ('\n' :: s) = some s from rfl]
  exact if_pos (Nat.lt_succ_self _)

section Items

variable {read : List Char → Option (Value × List Char)} {start : List Char} {v : Value}

theorem readItems_close (h : dropFill s = ']' :: rest) : readItems read s = some ([], rest) := by
  rw [readItems, h]
  rfl

theorem readItems_last (h : dropFill s = start) (hstart : start.head? ≠ some ']')
    (hread : read start = some (v, word)) (hclose : dropFill word = ']' :: rest) :
    readItems read s = some ([v], rest) := by
  rw [readItems, h]
  split
  · exact absurd rfl hstart
  · rw [hread]
    simp only [hclose]

theorem readItems_item (h : dropFill s = start) (hstart : start.head? ≠ some ']')
    (hread : read start = some (v, word)) (hcomma : dropFill word = ',' :: rest)
    (hlength : rest.length < s.length) :
    readItems read s = (readItems read rest).map fun x => (v :: x.1, x.2) := by
  rw [readItems, h]
  split
  · exact absurd rfl hstart
  · rw [hread]
    simp only [hcomma, if_pos hlength]

end Items

/-- The lines of a list's items. -/
def itemLines (items : List String) : List Char :=
  items.flatMap fun s => "    ".toList ++ writeText s.toList ++ [',', '\n']

theorem readItems_itemLines (room : Nat) (items : List String) (rest : List Char) :
    readItems (fun s => readValue room s) ('\n' :: (itemLines items ++ ']' :: rest)) =
      some (items.map .text, rest) := by
  induction items with
  | nil =>
    refine readItems_close ?_
    rw [dropFill_break]
    exact IsSolid.dropFill ⟨_, _, rfl, by decide⟩
  | cons s items ih =>
    have hsplit : itemLines (s :: items) ++ ']' :: rest = "    ".toList ++
        (writeText s.toList ++ ',' :: '\n' :: (itemLines items ++ ']' :: rest)) := by
      simp [itemLines]
    have hfill := dropFill_indent
      (isSolid_writeText s.toList (',' :: '\n' :: (itemLines items ++ ']' :: rest)))
    rw [hsplit, readItems_item ((dropFill_break _).trans hfill) (writeText_ne_bracket _ _)
      (readValue_text room s (by rintro _ ⟨⟩; decide)) (IsSolid.dropFill ⟨_, _, rfl, by decide⟩)
      (by simp; omega), ih]
    rfl

/-- A list is read back, on one line or with a line for each item. -/
theorem readValue_texts (room : Nat) (items : List String) (rest : List Char) :
    readValue (room + 1) (writeTexts items ++ rest) = some (.list (items.map .text), rest) := by
  rcases items with _ | ⟨s, _ | ⟨s', items⟩⟩
  · rw [writeTexts, List.cons_append, readValue, List.singleton_append,
      readItems_close (IsSolid.dropFill ⟨_, _, rfl, by decide⟩)]
    rfl
  · rw [writeTexts, List.cons_append, List.cons_append, readValue, List.append_assoc,
      List.singleton_append, readItems_last (isSolid_writeText _ _).dropFill
        (writeText_ne_bracket _ _) (readValue_text room s (by rintro _ ⟨⟩; decide))
        (IsSolid.dropFill ⟨_, _, rfl, by decide⟩)]
    rfl
  · have hlines : writeTexts (s :: s' :: items) =
        ['[', '\n'] ++ itemLines (s :: s' :: items) ++ [']'] := rfl
    rw [hlines, List.append_assoc, List.append_assoc, List.cons_append, readValue]
    simp only [List.cons_append, List.nil_append, readItems_itemLines]
    rfl

/-- A value is read back up to the end of its line, unless it is too large a number. -/
theorem readValue_chars (room : Nat) (w : Written) (rest : List Char) :
    readValue (room + 1) (w.chars ++ '\n' :: rest) =
      if w.IsReadable then some (w.value, '\n' :: rest) else none := by
  cases w with
  | number n =>
    have hword : ∀ c ∈ Nat.toDigits 10 n, isWordChar c = true := by
      intro c hc
      have hdigit := Numeral.isDigit_toDigits hc
      simp [isWordChar, Char.isAlphanum, hdigit]
    rw [Written.chars, readValue_word _ Nat.toDigits_ne_nil hword, scalar_toDigits]
    by_cases hn : n < 2 ^ 63
    · rw [if_pos hn, if_pos (show (Written.number n).IsReadable from hn)]
      rfl
    · rw [if_neg hn, if_neg (show ¬(Written.number n).IsReadable from hn)]
      rfl
  | boolean b =>
    have hword : (Written.boolean b).chars.all isWordChar = true := by cases b <;> rfl
    have hne : (Written.boolean b).chars ≠ [] := by cases b <;> decide
    have hscalar : scalar (Written.boolean b).chars = some (.boolean b) := by cases b <;> rfl
    rw [readValue_word _ hne (List.all_eq_true.mp hword), hscalar,
      if_pos (show (Written.boolean b).IsReadable from trivial)]
    rfl
  | text s => exact readValue_text _ s (by rintro _ ⟨⟩; decide)
  | texts items => exact readValue_texts room items _

/-! ## 3. Lines -/

/-- A key that is written without quotes. -/
def IsBareKey (key : String) : Prop := key ≠ "" ∧ key.toList.all isBareChar = true

instance (key : String) : Decidable (IsBareKey key) :=
  inferInstanceAs (Decidable (key ≠ "" ∧ key.toList.all isBareChar = true))

section Keys

variable {key : String}

theorem IsBareKey.head (h : IsBareKey key) :
    ∃ c tail, key.toList = c :: tail ∧ isBareChar c = true := by
  cases hkey : key.toList with
  | nil => exact absurd (String.toList_eq_nil_iff.mp hkey) h.1
  | cons c tail => exact ⟨c, tail, rfl, List.all_eq_true.mp h.2 c (hkey ▸ List.mem_cons_self)⟩

/-- A bare key begins neither like a header nor like a blank, a comment or a quoted key. -/
theorem IsBareKey.isSolid (h : IsBareKey key) (rest : List Char) :
    IsSolid (key.toList ++ rest) := by
  obtain ⟨c, tail, hkey, hc⟩ := h.head
  rw [hkey, List.cons_append]
  exact isSolid_cons (by decide) hc _

theorem readSimpleKey_bare (h : IsBareKey key) (hrest : ∀ c ∈ rest.head?, isBareChar c = false) :
    readSimpleKey (key.toList ++ rest) = some (key, rest) := by
  have hspan : (key.toList ++ rest).span isBareChar = (key.toList, rest) := by
    have hall := List.all_eq_true.mp h.2
    rw [List.span_eq_takeWhile_dropWhile, List.takeWhile_append_of_pos hall,
      List.dropWhile_append_of_pos hall]
    cases rest with
    | nil => simp
    | cons c rest => simp [hrest c rfl]
  obtain ⟨c, tail, hkey, hc⟩ := h.head
  unfold readSimpleKey
  split
  · rename_i heq
    rw [hkey] at heq
    cases heq
    cases hc
  · rename_i heq
    rw [hkey] at heq
    cases heq
    cases hc
  · rw [hspan]
    simp [h.1]

/-- A bare key that no dot follows is the only part. -/
theorem readKey_bare (h : IsBareKey key) (hrest : ∀ c ∈ rest.head?, isBareChar c = false)
    (hdot : (dropSpace rest).head? ≠ some '.') :
    readKey (key.toList ++ rest) = some ([key], dropSpace rest) := by
  rw [readKey, readKeys.eq_def]
  dsimp only
  rw [(h.isSolid rest).dropSpace, readSimpleKey_bare h hrest, Option.bind_eq_bind,
    Option.bind_some]
  dsimp only
  split
  · rename_i heq
    exact absurd (by rw [heq]; rfl) hdot
  · rfl

theorem readAssigned_bare (h : IsBareKey key) (hsolid : IsSolid rest) :
    readAssigned (key.toList ++ (" = ".toList ++ rest)) = some ([key], rest) := by
  have hkey : readKey (key.toList ++ (" = ".toList ++ rest)) =
      some ([key], dropSpace (" = ".toList ++ rest)) :=
    readKey_bare h (by rintro _ ⟨⟩; rfl) nofun
  have hsign : dropSpace (" = ".toList ++ rest) = '=' :: ' ' :: rest := rfl
  have hvalue : dropSpace (' ' :: rest) = rest := hsolid.dropSpace
  rw [readAssigned, hkey, hsign, Option.bind_eq_bind, Option.bind_some]
  exact congrArg (fun s => some ([key], s)) hvalue

end Keys

theorem isSolid_chars (w : Written) (rest : List Char) : IsSolid (w.chars ++ rest) := by
  cases w with
  | number n =>
    cases hdigits : Nat.toDigits 10 n with
    | nil => exact absurd hdigits Nat.toDigits_ne_nil
    | cons c s =>
      have hc : c ∈ Nat.toDigits 10 n := hdigits ▸ List.mem_cons_self
      rw [Written.chars, hdigits, List.cons_append]
      exact isSolid_cons (by decide) (Numeral.isDigit_toDigits hc) _
  | boolean b => cases b <;> exact ⟨_, _, rfl, by decide⟩
  | text s => exact isSolid_writeText _ _
  | texts items =>
    rcases items with _ | ⟨s, _ | ⟨s', items⟩⟩ <;> exact ⟨_, _, rfl, by decide⟩

section Lines

variable {p p' : Progress} {key name : String}

theorem lineEnd_break (rest : List Char) : lineEnd ('\n' :: rest) = some rest := rfl

theorem readLine_break (p : Progress) (rest : List Char) :
    readLine p ('\n' :: rest) = some (p, '\n' :: rest) := rfl

theorem readHeaderKey_bare (hname : IsBareKey name) (rest : List Char) :
    readHeaderKey [']'] (name.toList ++ ']' :: rest) = some ([], name, rest) := by
  have hkey : readKey (name.toList ++ ']' :: rest) = some ([name], ']' :: rest) :=
    readKey_bare hname (by rintro _ ⟨⟩; rfl) nofun
  rw [readHeaderKey, hkey]
  rfl

/-- A header opens its table. -/
theorem readLine_header (hname : IsBareKey name) (rest : List Char) :
    readLine p ('[' :: (name.toList ++ ']' :: '\n' :: rest)) =
      (Draft.openTable name p.entries).map fun entries => (⟨[name], entries⟩, '\n' :: rest) := by
  have hspace : dropSpace ('[' :: (name.toList ++ ']' :: '\n' :: rest)) =
      '[' :: (name.toList ++ ']' :: '\n' :: rest) := rfl
  obtain ⟨c, tail, hcons, hc⟩ := hname.head
  rw [readLine, hspace]
  split
  · rename_i heq
    rw [hcons] at heq
    cases heq
    cases hc
  · rename_i heq
    cases heq
    rw [readHeaderKey_bare hname]
    dsimp only [Option.bind_eq_bind, Option.bind_some, Draft.under]
    cases Draft.openTable name p.entries <;> rfl
  · rename_i heq
    cases heq
  · rename_i hother heq
    cases heq
    exact (hother rfl).elim

/-- A line with a key gives it its value, unless that is too large a number. -/
theorem readLine_key (hkey : IsBareKey key) (w : Written) (rest : List Char) :
    readLine p (key.toList ++ (" = ".toList ++ (w.chars ++ '\n' :: rest))) =
      if w.IsReadable then
        (Draft.under (Draft.assign w.value [key]) p.header p.entries).map
          fun entries => (⟨p.header, entries⟩, '\n' :: rest)
      else none := by
  have hassigned := readAssigned_bare hkey (isSolid_chars w ('\n' :: rest))
  have hvalue := readValue_chars 79 w rest
  have hspace := (hkey.isSolid (" = ".toList ++ (w.chars ++ '\n' :: rest))).dropSpace
  obtain ⟨c, tail, hcons, hc⟩ := hkey.head
  have hplain : ∀ d : Char, isBareChar d = false → c ≠ d := by
    rintro d hd rfl
    cases hc.symm.trans hd
  rw [hcons, List.cons_append] at hassigned hspace ⊢
  rw [readLine, hspace]
  split
  · rename_i heq
    exact absurd (List.cons.inj heq).1 (hplain '[' rfl)
  · rename_i heq
    exact absurd (List.cons.inj heq).1 (hplain '[' rfl)
  · rename_i heq
    cases heq
  · rename_i heq
    cases heq
    rw [if_neg (by simp [hplain '#' rfl, hplain '\n' rfl, hplain '\r' rfl]), hassigned,
      Option.bind_eq_bind, Option.bind_some]
    dsimp only
    rw [show nestingLimit = 79 + 1 from rfl, hvalue]
    split
    · rw [Option.bind_eq_bind, Option.bind_some]
      dsimp only
      cases Draft.under (Draft.assign w.value [key]) p.header p.entries <;> rfl
    · rfl

/-- After a line that was read the others are. -/
theorem readLines_step (h : readLine p s = some (p', '\n' :: rest))
    (hlength : rest.length < s.length) : readLines p s = readLines p' rest := by
  rw [readLines, h]
  dsimp only
  rw [lineEnd_break]
  cases rest with
  | nil =>
    rw [readLines]
    rfl
  | cons c rest => exact if_pos hlength

theorem readLines_none (h : readLine p s = none) : readLines p s = none := by
  rw [readLines, h]

end Lines

/-! ## 4. Documents -/

namespace Draft

variable {key : String} {change : Option Draft → Option Draft} {entries : Entries}

/-- A new key comes behind the others. -/
theorem alter_new (h : key ∉ entries.map Prod.fst) :
    alter key change entries = (change none).map fun d => entries ++ [(key, d)] := by
  induction entries with
  | nil => rfl
  | cons e entries ih =>
    rw [List.map_cons, List.mem_cons, not_or] at h
    rw [alter, if_neg (Ne.symm h.1), ih h.2]
    cases change none <;> rfl

theorem alter_last {d : Draft} (h : key ∉ entries.map Prod.fst) :
    alter key change (entries ++ [(key, d)]) =
      (change (some d)).map fun d' => entries ++ [(key, d')] := by
  induction entries with
  | nil =>
    rw [List.nil_append, alter, if_pos rfl]
    rfl
  | cons e entries ih =>
    rw [List.map_cons, List.mem_cons, not_or] at h
    rw [List.cons_append, alter, if_neg (Ne.symm h.1), ih h.2]
    cases change (some d) <;> rfl

/-- A new key of the last table. -/
theorem under_assign {standing : Standing} {name : String} {old : Entries} {v : Value}
    (hname : name ∉ entries.map Prod.fst) (hkey : key ∉ old.map Prod.fst) :
    under (assign v [key]) [name] (entries ++ [(name, .table standing old)]) =
      some (entries ++ [(name, .table standing (old ++ [(key, .done v)]))]) := by
  rw [under, alter_last hname]
  simp only [under, assign]
  rw [alter_new hkey]
  rfl

theorem openTable_new (h : key ∉ entries.map Prod.fst) :
    openTable key entries = some (entries ++ [(key, .table .opened [])]) := by
  rw [openTable, alter_new h]
  rfl

end Draft

namespace Section

/-- What a section amounts to. -/
def value (t : Section) : String × Value :=
  (t.name, .table (t.entries.map fun e => (e.1, e.2.value)))

/-- No number of the section is too large. -/
def IsReadable (t : Section) : Prop := ∀ e ∈ t.entries, e.2.IsReadable

instance (t : Section) : Decidable t.IsReadable :=
  inferInstanceAs (Decidable (∀ e ∈ t.entries, e.2.IsReadable))

/-- The keys are bare and come once. -/
structure IsProper (t : Section) : Prop where
  name : IsBareKey t.name
  keys : ∀ e ∈ t.entries, IsBareKey e.1
  distinct : (t.entries.map Prod.fst).Nodup

/-- The section in a document under construction. -/
def draft (t : Section) : String × Draft :=
  (t.name, .table .opened (t.entries.map fun e => (e.1, .done e.2.value)))

end Section

/-- The lines of entries. -/
def entryLines (entries : List (String × Written)) : List Char :=
  entries.flatMap fun e => e.1.toList ++ " = ".toList ++ e.2.chars ++ ['\n']

/-- The lines below a header give its table their entries. The induction is on the lines: what those
before have given is in the table already. -/
theorem readLines_entries {name : String} {front old : Draft.Entries}
    (hname : name ∉ front.map Prod.fst) {entries : List (String × Written)}
    (hkeys : ∀ e ∈ entries, IsBareKey e.1)
    (hdistinct : (old.map Prod.fst ++ entries.map Prod.fst).Nodup) (rest : List Char) :
    readLines ⟨[name], front ++ [(name, .table .opened old)]⟩ (entryLines entries ++ rest) =
      if ∀ e ∈ entries, e.2.IsReadable then
        readLines ⟨[name], front ++ [(name, .table .opened
          (old ++ entries.map fun e => (e.1, .done e.2.value)))]⟩ rest
      else none := by
  induction entries generalizing old with
  | nil => simp [entryLines]
  | cons e entries ih =>
    obtain ⟨key, w⟩ := e
    obtain ⟨hkey, hkeys⟩ := List.forall_mem_cons.mp hkeys
    have hnew : key ∉ old.map Prod.fst :=
      fun hmem => (List.nodup_append.mp hdistinct).2.2 key hmem key (by simp) rfl
    have hsplit : entryLines ((key, w) :: entries) ++ rest =
        key.toList ++ (" = ".toList ++ (w.chars ++ '\n' :: (entryLines entries ++ rest))) := by
      simp [entryLines]
    have hline := readLine_key (p := ⟨[name], front ++ [(name, .table .opened old)]⟩) hkey w
      (entryLines entries ++ rest)
    rw [Draft.under_assign hname hnew, Option.map_some] at hline
    rw [hsplit]
    by_cases hw : w.IsReadable
    · rw [if_pos hw] at hline
      have hold : ((old ++ [(key, Draft.done w.value)]).map Prod.fst ++
          entries.map Prod.fst).Nodup := by
        simpa using hdistinct
      rw [readLines_step hline (by simp; omega), ih hkeys hold, List.append_assoc]
      refine if_congr ?_ rfl rfl
      simp only [List.forall_mem_cons, hw, true_and]
    · rw [if_neg hw] at hline
      rw [readLines_none hline, if_neg fun h => hw (h (key, w) List.mem_cons_self)]

/-- A section is read as what it amounts to, unless one of its numbers is too large. -/
theorem readLines_section {t : Section} {header : List String} {front : Draft.Entries}
    (ht : t.IsProper) (hname : t.name ∉ front.map Prod.fst) (rest : List Char) :
    readLines ⟨header, front⟩ (t.chars ++ rest) =
      if t.IsReadable then readLines ⟨[t.name], front ++ [t.draft]⟩ rest else none := by
  have hsplit : t.chars ++ rest =
      '[' :: (t.name.toList ++ ']' :: '\n' :: (entryLines t.entries ++ rest)) := by
    simp [Section.chars, entryLines]
  have hheader := readLine_header (p := ⟨header, front⟩) ht.name (entryLines t.entries ++ rest)
  rw [Draft.openTable_new hname, Option.map_some] at hheader
  rw [hsplit, readLines_step hheader (by simp; omega),
    readLines_entries hname ht.keys (by simpa using ht.distinct)]
  rfl

theorem write_cons (t t' : Section) (sections : List Section) :
    write (t :: t' :: sections) = t.chars ++ '\n' :: write (t' :: sections) := by
  rw [write, List.map_cons, List.map_cons, List.intercalate_cons_cons, List.append_assoc]
  rfl

theorem readLines_nil (p : Progress) : readLines p [] = some p := by
  rw [readLines]
  rfl

theorem readLines_write_cons {t : Section} {header : List String} {front : Draft.Entries}
    (ht : t.IsProper) (hname : t.name ∉ front.map Prod.fst) (sections : List Section) :
    readLines ⟨header, front⟩ (write (t :: sections)) =
      if t.IsReadable then readLines ⟨[t.name], front ++ [t.draft]⟩ (write sections) else none := by
  cases sections with
  | nil =>
    have hwrite : write [t] = t.chars ++ write [] := by simp [write]
    rw [hwrite, readLines_section ht hname]
  | cons t' sections =>
    -- The empty line between two sections leaves everything as it is.
    rw [write_cons, readLines_section ht hname,
      readLines_step (readLine_break _ _) (Nat.lt_succ_self _)]

theorem readLines_write {sections : List Section} {header : List String} {front : Draft.Entries}
    (hproper : ∀ t ∈ sections, t.IsProper)
    (hdistinct : (front.map Prod.fst ++ sections.map Section.name).Nodup) :
    (readLines ⟨header, front⟩ (write sections)).map Progress.entries =
      if ∀ t ∈ sections, t.IsReadable then some (front ++ sections.map Section.draft)
      else none := by
  induction sections generalizing header front with
  | nil =>
    rw [show write [] = [] from rfl, readLines_nil, if_pos nofun, List.map_nil, List.append_nil]
    rfl
  | cons t sections ih =>
    obtain ⟨ht, hproper⟩ := List.forall_mem_cons.mp hproper
    have hname : t.name ∉ front.map Prod.fst :=
      fun hmem => (List.nodup_append.mp hdistinct).2.2 t.name hmem t.name (by simp) rfl
    have hnext : ((front ++ [t.draft]).map Prod.fst ++ sections.map Section.name).Nodup := by
      simpa [Section.draft] using hdistinct
    rw [readLines_write_cons ht hname]
    by_cases hread : t.IsReadable
    · rw [if_pos hread, ih hproper hnext, List.append_assoc]
      refine if_congr ?_ rfl rfl
      simp only [List.forall_mem_cons, hread, true_and]
    · rw [if_neg hread, if_neg fun h => hread (h t List.mem_cons_self)]
      rfl

theorem finish_draft (t : Section) : (t.draft.1, Draft.finish t.draft.2) = t.value := by
  rw [Section.draft, Draft.finish, Draft.finishEntries_eq, List.map_map]
  rfl

/-- What is written begins with no byte order mark. -/
theorem write_ne_mark (sections : List Section) (rest : List Char) :
    write sections ≠ '\uFEFF' :: rest := by
  rcases sections with _ | ⟨t, _ | ⟨t', sections⟩⟩
  · nofun
  · rw [write, List.map_singleton, List.intercalate_singleton]
    nofun
  · rw [write_cons]
    nofun

/-- What is written for sections is read as the sections, unless one of their numbers is too
large. -/
theorem read_write {sections : List Section} (hproper : ∀ t ∈ sections, t.IsProper)
    (hdistinct : (sections.map Section.name).Nodup) :
    read (write sections) =
      if ∀ t ∈ sections, t.IsReadable then some (sections.map Section.value) else none := by
  have hlines := @readLines_write sections [] [] hproper (by simpa using hdistinct)
  rw [List.nil_append] at hlines
  rw [read]
  · rw [← Function.comp_def Draft.finishEntries Progress.entries, ← Option.map_map, hlines]
    split
    · rw [Option.map_some, Draft.finishEntries_eq, List.map_map]
      exact congrArg some (List.map_congr_left fun t _ => finish_draft t)
    · rfl
  · exact write_ne_mark sections

end Toml

end SupervisedWorker
