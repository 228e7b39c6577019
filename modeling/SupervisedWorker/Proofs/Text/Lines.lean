import Mathlib.Data.List.Count
import SupervisedWorker.Proofs.Console.Gate

/-!
# Lines of texts and of bytes

Who reads a stream line by line finds the lines of the texts that were printed to it: no character
but the line break has the byte of a line break in its encoding.

Results:
1. `lines_break`, `intercalate_lines`, `count_lines_between`: the lines of a text that is put together
   from others.
2. `utf8_injective`, `splitOn_encode`: a text can be told from its bytes, and so can its lines.
3. `byteLines_linesBytes`: the lines that are read are those that were printed.
-/

namespace SupervisedWorker.Text

/-! ## 1. Lines of a text -/

/-- The lines of a text, one more than it has line breaks. -/
def lines (s : String) : List String := (s.toList.splitOn '\n').map String.ofList

/-- Whether a text has no line break. -/
def IsOneLine (s : String) : Prop := '\n' ∉ s.toList

instance (s : String) : Decidable (IsOneLine s) := inferInstanceAs (Decidable ('\n' ∉ s.toList))

theorem isOneLine_append {s t : String} : IsOneLine (s ++ t) ↔ IsOneLine s ∧ IsOneLine t := by
  rw [IsOneLine, String.toList_append, List.mem_append, not_or]
  rfl

theorem notMem_toDigits {c : Char} (hc : c.isDigit = false) (n : Nat) :
    c ∉ Nat.toDigits 10 n := by
  intro h
  have hdigit := Nat.isDigit_of_mem_toDigits (by decide) (Nat.le_refl 10) h
  rw [hc] at hdigit
  cases hdigit

theorem isOneLine_toString (n : Nat) : IsOneLine (toString n) := by
  have hdigits : (toString n).toList = Nat.toDigits 10 n := Nat.toList_repr
  rw [IsOneLine, hdigits]
  exact notMem_toDigits rfl n

theorem splitOn_eq_singleton {α : Type} [DecidableEq α] {a : α} {l : List α} (h : a ∉ l) :
    l.splitOn a = [l] := by
  rw [List.splitOn_eq_splitOnP]
  exact List.splitOnP_eq_singleton fun x hx => by
    simpa using fun hxa : x = a => h (hxa ▸ hx)

theorem lines_of_isOneLine {s : String} (h : IsOneLine s) : lines s = [s] := by
  rw [lines, splitOn_eq_singleton h, List.map_singleton, String.ofList_toList]

/-- A line break parts the lines before it from those behind it. -/
theorem lines_break (s t : String) : lines (s ++ "\n" ++ t) = lines s ++ lines t := by
  have hbreak : (s ++ "\n" ++ t).toList = s.toList ++ '\n' :: t.toList := by
    rw [String.toList_append, String.toList_append, List.append_assoc]
    rfl
  rw [lines, hbreak, List.splitOn_append_cons_self, List.map_append]
  rfl

/-- A text is its own line, or it has a line in front of a first line break. -/
theorem isOneLine_or (s : String) :
    IsOneLine s ∨ ∃ first rest, IsOneLine first ∧ s = first ++ "\n" ++ rest := by
  by_cases h : '\n' ∈ s.toList
  · obtain ⟨first, rest, hs, hfirst⟩ := List.eq_append_cons_of_mem h
    refine .inr ⟨String.ofList first, String.ofList rest, ?_, ?_⟩
    · rwa [IsOneLine, String.toList_ofList]
    · rw [← String.toList_inj]
      simpa using hs
  · exact .inl h

/-- The lines of a text, put together again. -/
theorem intercalate_lines (s : String) : "\n".intercalate (lines s) = s := by
  have hchars : (lines s).map String.toList = s.toList.splitOn '\n' := by
    simp [lines, Function.comp_def]
  rw [← String.toList_inj, String.toList_intercalate, hchars]
  exact List.intercalate_splitOn '\n'

theorem lines_ne_nil (s : String) : lines s ≠ [] := by
  rw [lines, Ne, List.map_eq_nil_iff]
  exact List.splitOn_ne_nil '\n' s.toList

/-- What is put behind a text changes its last line only. -/
theorem count_lines_append {line post : String} (hpost : IsOneLine post)
    (hline : ∀ t, t ++ post ≠ line) (s : String) :
    (lines (s ++ post)).count line = (lines s).dropLast.count line := by
  -- The induction takes one line after the other off the front, until one is left.
  induction hlen : s.length using Nat.strongRecOn generalizing s with
  | ind len ih =>
    obtain hs | ⟨first, rest, hfirst, rfl⟩ := isOneLine_or s
    · rw [lines_of_isOneLine (isOneLine_append.mpr ⟨hs, hpost⟩), lines_of_isOneLine hs,
        List.count_singleton, if_neg (by simpa using hline s)]
      rfl
    · have hshorter : rest.length < len := by
        rw [← hlen, String.length_append, String.length_append]
        exact Nat.lt_add_of_pos_left (Nat.lt_of_lt_of_le Nat.one_pos (Nat.le_add_left 1 _))
      have hparts : first ++ "\n" ++ rest ++ post = first ++ "\n" ++ (rest ++ post) :=
        String.append_assoc
      rw [hparts, lines_break, lines_break, List.dropLast_append_of_ne_nil (lines_ne_nil rest),
        List.count_append, List.count_append, ih _ hshorter rest rfl]

/-- The lines of a text but for the first and the last. -/
def innerLines (s : String) : List String := (lines s).tail.dropLast

/-- What is put around a text changes its first and its last line only. -/
theorem count_lines_between {line pre post : String} (hpre : IsOneLine pre)
    (hpost : IsOneLine post) (hhead : ∀ t, pre ++ t ≠ line) (hlast : ∀ t, t ++ post ≠ line)
    (s : String) : (lines (pre ++ s ++ post)).count line = (innerLines s).count line := by
  obtain hs | ⟨first, rest, hfirst, rfl⟩ := isOneLine_or s
  · have hone : IsOneLine (pre ++ s ++ post) :=
      isOneLine_append.mpr ⟨isOneLine_append.mpr ⟨hpre, hs⟩, hpost⟩
    rw [lines_of_isOneLine hone, List.count_singleton, if_neg (by simpa using hlast (pre ++ s)),
      innerLines, lines_of_isOneLine hs]
    rfl
  · -- The first line takes what is put in front, and the rest what is put behind.
    have hparts : pre ++ (first ++ "\n" ++ rest) ++ post =
        pre ++ first ++ "\n" ++ (rest ++ post) := by
      simp only [String.append_assoc]
    have hone : IsOneLine (pre ++ first) := isOneLine_append.mpr ⟨hpre, hfirst⟩
    rw [hparts, lines_break, List.count_append, lines_of_isOneLine hone, List.count_singleton,
      if_neg (by simpa using hhead first), Nat.zero_add, count_lines_append hpost hlast,
      innerLines, lines_break, lines_of_isOneLine hfirst]
    rfl

/-! ## 2. Texts as bytes -/

/-- The byte of a line break. -/
def lineBreak : UInt8 := 10

/-- Characters as bytes. -/
def encode (l : List Char) : List UInt8 := l.flatMap String.utf8EncodeChar

theorem encode_injective : Function.Injective encode := by
  intro l l' h
  have hdecoded : l.utf8Encode.utf8Decode? = l'.utf8Encode.utf8Decode? :=
    congrArg (fun bytes => ByteArray.utf8Decode? bytes.toByteArray) h
  rw [List.utf8Decode?_utf8Encode, List.utf8Decode?_utf8Encode] at hdecoded
  simpa using hdecoded

theorem utf8_injective : Function.Injective utf8 := fun _ _ h =>
  String.toList_inj.mp (encode_injective h)

/-- Only a line break has the byte of a line break in its encoding. -/
theorem lineBreak_notMem_utf8EncodeChar {c : Char} (h : c ≠ '\n') :
    lineBreak ∉ String.utf8EncodeChar c := by
  -- A character of one byte is that byte, and longer encodings consist of bytes from 128 on.
  have hne : ∀ n < 256, n ≠ 10 → lineBreak ≠ UInt8.ofNat n := by
    intro n hlt hn heq
    have hnat : (10 : Nat) = n % 256 := congrArg UInt8.toNat heq
    omega
  unfold String.utf8EncodeChar
  dsimp only
  split
  · have hchar : c.val.toNat ≠ 10 := fun hc => h (Char.toNat_inj.mp hc)
    simpa using hne _ (by omega) hchar
  · split
    · simp only [List.mem_cons, List.not_mem_nil, or_false, not_or]
      exact ⟨hne _ (by omega) (by omega), hne _ (by omega) (by omega)⟩
    · split
      · simp only [List.mem_cons, List.not_mem_nil, or_false, not_or]
        exact ⟨hne _ (by omega) (by omega), hne _ (by omega) (by omega),
          hne _ (by omega) (by omega)⟩
      · simp only [List.mem_cons, List.not_mem_nil, or_false, not_or]
        exact ⟨hne _ (by omega) (by omega), hne _ (by omega) (by omega),
          hne _ (by omega) (by omega), hne _ (by omega) (by omega)⟩

theorem splitOn_append_of_notMem {α : Type} [DecidableEq α] {a : α} {l : List α} (h : a ∉ l)
    (l' : List α) : (l ++ l').splitOn a = (l'.splitOn a).modifyHead (l ++ ·) := by
  induction l with
  | nil =>
    rw [List.nil_append]
    cases l'.splitOn a <;> rfl
  | cons x l ih =>
    obtain ⟨hx, hl⟩ := not_or.mp (mt List.mem_cons.mpr h)
    rw [List.cons_append, List.splitOn_eq_splitOnP, List.splitOnP_cons_eq_if_modifyHead,
      if_neg (by simpa using Ne.symm hx), ← List.splitOn_eq_splitOnP, ih hl,
      List.modifyHead_modifyHead]
    rfl

/-- The pieces between the line breaks are the same before the encoding and after it. -/
theorem splitOn_encode (l : List Char) :
    (encode l).splitOn lineBreak = (l.splitOn '\n').map encode := by
  induction l with
  | nil => rfl
  | cons c l ih =>
    by_cases hc : c = '\n'
    · subst hc
      have hbytes : encode ('\n' :: l) = [] ++ lineBreak :: encode l := rfl
      have hchars : '\n' :: l = [] ++ '\n' :: l := rfl
      rw [hbytes, List.splitOn_append_cons_self, ih, hchars, List.splitOn_append_cons_self]
      rfl
    · have hbytes : encode (c :: l) = String.utf8EncodeChar c ++ encode l := List.flatMap_cons
      have hchars : c :: l = [c] ++ l := rfl
      rw [hbytes, splitOn_append_of_notMem (lineBreak_notMem_utf8EncodeChar hc), ih, hchars,
        splitOn_append_of_notMem (by simpa using Ne.symm hc)]
      cases l.splitOn '\n' <;> rfl

/-! ## 3. Lines of bytes -/

/-- The lines of some bytes: what stands between the line breaks, but for nothing behind the last
one. -/
def byteLines (bytes : List UInt8) : List (List UInt8) :=
  let pieces := bytes.splitOn lineBreak
  if pieces.getLast? = some [] then pieces.dropLast else pieces

theorem byteLines_append (bytes rest : List UInt8) :
    byteLines (bytes ++ lineBreak :: rest) = bytes.splitOn lineBreak ++ byteLines rest := by
  have hne : rest.splitOn lineBreak ≠ [] := List.splitOn_ne_nil lineBreak rest
  simp only [byteLines]
  rw [List.splitOn_append_cons_self, List.getLast?_append, List.dropLast_append_of_ne_nil hne,
    List.getLast?_eq_some_getLast hne, Option.some_or]
  split <;> rfl

theorem splitOn_utf8 (s : String) : (utf8 s).splitOn lineBreak = (lines s).map utf8 := by
  rw [lines, List.map_map]
  refine (splitOn_encode s.toList).trans (List.map_congr_left fun l _ => ?_)
  exact congrArg encode String.toList_ofList.symm

/-- The lines that are read are those of the texts that were printed. -/
theorem byteLines_linesBytes (texts : List String) :
    byteLines (Gate.linesBytes texts) = (texts.flatMap lines).map utf8 := by
  induction texts with
  | nil => rfl
  | cons text texts ih =>
    have hbytes : Gate.linesBytes (text :: texts) =
        utf8 text ++ lineBreak :: Gate.linesBytes texts := List.append_assoc ..
    rw [hbytes, byteLines_append, splitOn_utf8, ih, List.flatMap_cons, List.map_append]

end SupervisedWorker.Text
