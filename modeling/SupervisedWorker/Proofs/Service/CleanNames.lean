import SupervisedWorker.Proofs.Service.NameList

/-!
# What every name in a list is like

Whatever text is read as a list, its names are different from each other, and each is free of spaces
and commas and of blanks at its ends. Quotes at the ends are dropped before blanks are, and neither
is tried again: a quote that stands behind a tab or a line break stays, although the blank in front
of it goes.

Results:
1. `head?_strip`, `strip_reverse`: the ends of a stripped text.
2. `cleanName_head_iff`, `cleanName_last_iff`: when a name keeps a quote.
3. `parse_clean`: what holds of all names in a list; `quote_behind_break` is a list in which a name
   keeps a quote.
-/

namespace SupervisedWorker

/-! ## 1. The ends of a stripped text -/

namespace Text

variable {p : Char → Bool} {s : List Char} {c : Char}

theorem strip_last (p : Char → Bool) (s : List Char) :
    ∀ c ∈ (strip p s).getLast?, p c = false := by
  intro c hc
  rw [strip, List.getLast?_reverse] at hc
  have hnot := List.head?_dropWhile_not p (s.dropWhile p).reverse
  rw [hc] at hnot
  exact hnot

/-- What is dropped at the end of a text does not reach its first character that is kept. -/
theorem head?_strip (p : Char → Bool) (s : List Char) :
    (strip p s).head? = (s.dropWhile p).head? := by
  have hstrip : strip p s = (s.dropWhile p).rdropWhile p := rfl
  cases hdrop : s.dropWhile p with
  | nil => rw [hstrip, hdrop, List.rdropWhile_nil]
  | cons c rest =>
    have hc : p c = false := by
      have hnot := List.head?_dropWhile_not p s
      rw [hdrop] at hnot
      exact hnot
    obtain ⟨back, hback⟩ := List.rdropWhile_prefix p (c :: rest)
    rw [hstrip, hdrop]
    cases hkept : (c :: rest).rdropWhile p with
    | nil =>
      have hall := List.rdropWhile_eq_nil_iff.mp hkept c List.mem_cons_self
      rw [hc] at hall
      cases hall
    | cons c' kept =>
      rw [hkept] at hback
      obtain ⟨rfl, -⟩ := List.cons.inj hback
      rfl

/-- A text with nothing to drop at either end stays as it is. -/
theorem strip_eq_self_iff : strip p s = s ↔
    (∀ c ∈ s.head?, p c = false) ∧ ∀ c ∈ s.getLast?, p c = false := by
  constructor
  · intro h
    obtain ⟨_, _, _, _, _, hhead⟩ := strip_split p s
    exact ⟨h ▸ hhead, h ▸ strip_last p s⟩
  · rintro ⟨hhead, hlast⟩
    by_cases hnil : s = []
    · rw [hnil]
      rfl
    · have hstrip : strip p ([] ++ s ++ []) = s := strip_around hnil nofun nofun hhead hlast
      rwa [List.nil_append, List.append_nil] at hstrip

theorem strip_reverse (p : Char → Bool) (s : List Char) :
    strip p s.reverse = (strip p s).reverse := by
  obtain ⟨front, back, hsplit, hfront, hback, hhead⟩ := strip_split p s
  by_cases hnil : strip p s = []
  · have hall : ∀ c ∈ s.reverse, p c = true := by
      intro c hc
      rw [hsplit, hnil, List.nil_append, List.mem_reverse, List.mem_append] at hc
      exact hc.elim (hfront c) (hback c)
    rw [hnil, strip, List.dropWhile_eq_nil_iff.mpr hall]
    rfl
  · have hreverse : s.reverse = back.reverse ++ (strip p s).reverse ++ front.reverse := by
      rw [← List.reverse_append, ← List.reverse_append, ← hsplit]
    rw [hreverse]
    refine strip_around (by simpa using hnil) ?_ ?_ ?_ ?_
    · exact fun c hc => hback c (List.mem_reverse.mp hc)
    · exact fun c hc => hfront c (List.mem_reverse.mp hc)
    · rw [List.head?_reverse]
      exact strip_last p s
    · rw [List.getLast?_reverse]
      exact hhead

theorem mem_of_mem_strip (hc : c ∈ strip p s) : c ∈ s := by
  obtain ⟨front, back, hsplit, -⟩ := strip_split p s
  rw [hsplit]
  exact List.mem_append_right front (List.mem_append_left back hc)

/-- The characters of a piece are no separators. -/
theorem unbroken_of_mem_pieces {piece : List Char} (hpiece : piece ∈ pieces p s) :
    ∀ c ∈ piece, p c = false := by
  induction s generalizing piece with
  | nil =>
    rw [List.mem_singleton.mp hpiece]
    exact nofun
  | cons c s ih =>
    rw [pieces] at hpiece
    split at hpiece
    · rcases List.mem_cons.mp hpiece with rfl | hpiece
      · exact nofun
      · exact ih hpiece
    · rename_i hc
      have hc : p c = false := by simpa using hc
      split at hpiece
      · rw [List.mem_singleton.mp hpiece]
        exact fun d hd => List.mem_singleton.mp hd ▸ hc
      · rename_i first others hpieces
        rw [hpieces] at ih
        rcases List.mem_cons.mp hpiece with rfl | hpiece
        · intro d hd
          rcases List.mem_cons.mp hd with rfl | hd
          · exact hc
          · exact ih List.mem_cons_self d hd
        · exact ih (List.mem_cons_of_mem _ hpiece)

end Text

namespace ServiceList

/-! ## 2. Names that keep a quote -/

variable {piece : List Char}

theorem cleanName_reverse (piece : List Char) :
    cleanName piece.reverse = (cleanName piece).reverse := by
  rw [cleanName, Text.strip_reverse, Text.trim, Text.strip_reverse]
  rfl

/-- A quote that blanks protect. In front of the blanks there is nothing but quotes, and not all
that follows the quote are quotes, which would be dropped with it from the other end. -/
def ShieldsQuote (piece : List Char) : Prop :=
  ∃ outer blanks inner, piece = outer ++ (blanks ++ '"' :: inner) ∧ (∀ c ∈ outer, c = '"') ∧
    blanks ≠ [] ∧ (∀ c ∈ blanks, Text.isBlank c = true) ∧ ∃ c ∈ inner, c ≠ '"'

theorem shieldsQuote_of_head (h : (cleanName piece).head? = some '"') : ShieldsQuote piece := by
  obtain ⟨outer, outer', hpiece, houter, -, hfirst⟩ := Text.strip_split (· == '"') piece
  have hlast := Text.strip_last (· == '"') piece
  generalize hunquoted : Text.strip (· == '"') piece = unquoted at hpiece hfirst hlast
  obtain ⟨blanks, blanks', hsplit, hblanks, -, -⟩ := Text.strip_split Text.isBlank unquoted
  have hname : Text.strip Text.isBlank unquoted = cleanName piece := by
    rw [cleanName, hunquoted, Text.trim]
  rw [hname] at hsplit
  obtain ⟨name, hcons⟩ := List.head?_eq_some_iff.mp h
  rw [hcons] at hsplit
  have hne : blanks ≠ [] := by
    rintro rfl
    have hquote := hfirst '"' (by rw [hsplit]; rfl)
    simp at hquote
  refine ⟨outer, blanks, name ++ blanks' ++ outer', ?_, ?_, hne, hblanks, ?_⟩
  · rw [hpiece, hsplit]
    simp only [List.append_assoc, List.cons_append]
  · exact fun c hc => by simpa using houter c hc
  · -- The last character of the text without its quotes is none, so it stands behind the quote.
    rcases List.eq_nil_or_concat' (name ++ blanks') with hnil | ⟨rest, c, hrest⟩
    · have hquote := hlast '"' (by
        rw [hsplit, List.cons_append, hnil, List.getLast?_append]
        rfl)
      simp at hquote
    · have hc := hlast c (by
        rw [hsplit, List.cons_append, hrest, ← List.cons_append, ← List.append_assoc,
          List.getLast?_concat]
        rfl)
      exact ⟨c, by rw [hrest]; simp, by simpa using hc⟩

theorem head_of_shieldsQuote (h : ShieldsQuote piece) : (cleanName piece).head? = some '"' := by
  obtain ⟨outer, blanks, inner, rfl, houter, hne, hblanks, c, hc, hcq⟩ := h
  have hquotes : inner.rdropWhile (· == '"') ≠ [] := by
    intro hnil
    have hall := List.rdropWhile_eq_nil_iff.mp hnil c hc
    exact hcq (by simpa using hall)
  have hlast := List.rdropWhile_last_not (· == '"') inner hquotes
  have hinner := List.rdropWhile_append_rtakeWhile (p := (· == '"')) (l := inner)
  generalize inner.rdropWhile (· == '"') = kept at hquotes hlast hinner
  have hunquoted : Text.strip (· == '"') (outer ++ (blanks ++ '"' :: inner)) =
      blanks ++ '"' :: kept := by
    have hsplit : outer ++ (blanks ++ '"' :: inner) =
        outer ++ (blanks ++ '"' :: kept) ++ inner.rtakeWhile (· == '"') := by
      conv_lhs => rw [← hinner]
      simp only [List.append_assoc, List.cons_append]
    rw [hsplit]
    refine Text.strip_around (by simp) ?_ ?_ ?_ ?_
    · exact fun c hc => by simpa using houter c hc
    · exact fun c => List.mem_rtakeWhile_imp
    · intro d hd
      have hblank := hblanks d (by
        rw [List.head?_append_of_ne_nil _ hne] at hd
        exact List.mem_of_mem_head? hd)
      have hquote : d ≠ '"' := by
        rintro rfl
        rw [blank_quote] at hblank
        cases hblank
      simpa using hquote
    · intro d hd
      rw [List.getLast?_append, List.getLast?_cons, List.getLast?_eq_some_getLast hquotes] at hd
      obtain rfl := Option.some.inj hd
      simpa using hlast
  rw [cleanName, hunquoted, Text.trim, Text.head?_strip, Text.dropWhile_behind hblanks]
  · rfl
  · rintro d ⟨⟩
    exact blank_quote

/-- A name begins with a quote exactly if blanks protect it. -/
theorem cleanName_head_iff : (cleanName piece).head? = some '"' ↔ ShieldsQuote piece :=
  ⟨shieldsQuote_of_head, head_of_shieldsQuote⟩

theorem cleanName_last_iff :
    (cleanName piece).getLast? = some '"' ↔ ShieldsQuote piece.reverse := by
  rw [← cleanName_head_iff, cleanName_reverse, List.head?_reverse]

theorem plain_ends_iff :
    (cleanName piece).head? ≠ some '"' ∧ (cleanName piece).getLast? ≠ some '"' ↔
      ¬ShieldsQuote piece ∧ ¬ShieldsQuote piece.reverse :=
  and_congr (not_congr cleanName_head_iff) (not_congr cleanName_last_iff)

/-! ## 3. All names of a list -/

/-- What is sure about a name. -/
structure IsTrimmed (name : String) : Prop where
  nonempty : name ≠ ""
  unbroken : ∀ c ∈ name.toList, isSeparator c = false
  head : ∀ c ∈ name.toList.head?, Text.isBlank c = false
  last : ∀ c ∈ name.toList.getLast?, Text.isBlank c = false

/-- The pieces that a list is taken apart into. -/
def rawPieces (raw : String) : List (List Char) :=
  Text.pieces isSeparator (dropIntroduction (Text.trim raw.toList))

theorem mem_parse {raw name : String} :
    name ∈ parse raw ↔ name ≠ "" ∧ ∃ piece ∈ rawPieces raw, cleanName piece = name.toList := by
  have hmem : name ∈ parse raw ↔ name.toList ∈ parseChars raw.toList := by
    rw [parse, List.mem_map]
    constructor
    · rintro ⟨s, hs, rfl⟩
      rwa [String.toList_ofList]
    · exact fun h => ⟨_, h, String.ofList_toList⟩
  rw [hmem, parseChars_eq, mem_keepFirst, read, List.mem_filter, List.mem_map, and_comm]
  simp only [rawPieces, ne_eq, decide_not, Bool.not_eq_true', decide_eq_false_iff_not,
    String.toList_eq_nil_iff]

theorem nodup_parse (raw : String) : (parse raw).Nodup :=
  (nodup_keepFirst _).map fun _ _ => String.ofList_inj.mp

theorem isTrimmed_of_mem {raw name : String} (h : name ∈ parse raw) : IsTrimmed name := by
  obtain ⟨hne, piece, hpiece, hname⟩ := mem_parse.mp h
  refine ⟨hne, ?_, ?_, ?_⟩ <;> rw [← hname]
  · intro c hc
    have hin := Text.mem_of_mem_strip (Text.mem_of_mem_strip hc)
    exact Text.unbroken_of_mem_pieces hpiece c hin
  · exact (Text.strip_split Text.isBlank _).choose_spec.choose_spec.2.2.2
  · exact Text.strip_last Text.isBlank _

/-- Whatever text is read as a list, no name comes twice, and every name has something in it, no
space and no comma, and no blank at either end. The names have no quotes at their ends either,
exactly as long as in no piece of the list blanks protect one. -/
theorem parse_clean (raw : String) :
    (parse raw).Nodup ∧ (∀ name ∈ parse raw, IsTrimmed name) ∧
      ((∀ name ∈ parse raw, name.toList.head? ≠ some '"' ∧ name.toList.getLast? ≠ some '"') ↔
        ∀ piece ∈ rawPieces raw, ¬ShieldsQuote piece ∧ ¬ShieldsQuote piece.reverse) := by
  refine ⟨nodup_parse raw, fun name h => isTrimmed_of_mem h, ?_⟩
  constructor
  · intro h piece hpiece
    rw [← plain_ends_iff]
    by_cases hnil : cleanName piece = []
    · simp [hnil]
    · have hmem : String.ofList (cleanName piece) ∈ parse raw :=
        mem_parse.mpr ⟨by simpa using hnil, piece, hpiece, (String.toList_ofList).symm⟩
      simpa only [String.toList_ofList] using h _ hmem
  · intro h name hname
    obtain ⟨-, piece, hpiece, heq⟩ := mem_parse.mp hname
    rw [← heq]
    exact plain_ends_iff.mpr (h piece hpiece)

/-- Two names in quotes on two lines: the line break keeps the first quote of the second name from
being dropped and is then dropped itself. -/
theorem quote_behind_break : parse "\"GSC\",\n\"GSM\"" = ["GSC", "\"GSM"] ∧
    "\"GSM".toList.head? = some '"' := by
  decide +kernel

end ServiceList

end SupervisedWorker
