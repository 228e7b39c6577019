import SupervisedWorker.Proofs.Service.CleanNames

/-!
# Lists with commas only

A reader that knows of no separator but the comma makes a list of the pieces between the commas. The
list that a text is parsed into is another one wherever the text has more to it: spaces, quotes,
blanks around a name, a name that comes again, nothing between two commas, or an introduction.

Results:
1. `length_cleanName_le`, `keepFirst_sublist`: parsing makes names shorter and lists too.
2. `strip_of_pieces`: a text whose pieces are bare at their ends is so itself.
3. `parse_eq_commaPieces_iff`: which texts are parsed into their pieces.
-/

namespace SupervisedWorker

namespace Text

variable {p q : Char → Bool} {s front : List Char}

/-! ## 1. Shorter texts -/

theorem length_strip_le (p : Char → Bool) (s : List Char) : (strip p s).length ≤ s.length := by
  obtain ⟨front, back, hsplit, -⟩ := strip_split p s
  have hlength := congrArg List.length hsplit
  simp only [List.length_append] at hlength
  omega

theorem strip_of_length (h : s.length ≤ (strip p s).length) : strip p s = s := by
  obtain ⟨front, back, hsplit, -⟩ := strip_split p s
  have hlength := congrArg List.length hsplit
  simp only [List.length_append] at hlength
  obtain rfl : front = [] := List.length_eq_zero_iff.mp (by omega)
  obtain rfl : back = [] := List.length_eq_zero_iff.mp (by omega)
  rw [List.nil_append, List.append_nil] at hsplit
  exact hsplit.symm

/-! ## 2. Pieces -/

theorem pieces_congr (h : ∀ c ∈ s, p c = q c) : pieces p s = pieces q s := by
  induction s with
  | nil => rfl
  | cons c s ih =>
    rw [List.forall_mem_cons] at h
    rw [pieces, pieces, h.1, ih h.2]

/-- What stands before the first separator is a part of the first piece. -/
theorem pieces_append (hfront : ∀ c ∈ front, p c = false) (s : List Char) :
    pieces p (front ++ s) = (pieces p s).modifyHead (front ++ ·) := by
  simp only [pieces_eq_splitOnP]
  induction front with
  | nil => exact (congrFun List.modifyHead_id _).symm
  | cons c front ih =>
    rw [List.forall_mem_cons] at hfront
    rw [List.cons_append, List.splitOnP_cons_eq_if_modifyHead, hfront.1, if_neg Bool.false_ne_true,
      ih hfront.2, List.modifyHead_modifyHead]
    rfl

theorem intercalate_pieces (c : Char) (s : List Char) :
    [c].intercalate (pieces (· == c) s) = s := by
  rw [pieces_eq_splitOnP]
  exact List.intercalate_splitOn c

/-- Every character of a text is a separator or stands in a piece. -/
theorem mem_pieces_of_mem {c : Char} (hc : c ∈ s) (hp : p c = false) :
    ∃ piece ∈ pieces p s, c ∈ piece := by
  induction s with
  | nil => cases hc
  | cons d s ih =>
    rw [pieces_eq_splitOnP, List.splitOnP_cons_eq_if_modifyHead, ← pieces_eq_splitOnP]
    split
    · rename_i hd
      rcases List.mem_cons.mp hc with rfl | hc
      · cases hp.symm.trans hd
      · obtain ⟨piece, hpiece, hmem⟩ := ih hc
        exact ⟨piece, List.mem_cons_of_mem _ hpiece, hmem⟩
    · cases hpieces : pieces p s with
      | nil =>
        rw [pieces_eq_splitOnP] at hpieces
        exact absurd hpieces (List.splitOnP_ne_nil p s)
      | cons first others =>
        rw [List.modifyHead_cons]
        rcases List.mem_cons.mp hc with rfl | hc
        · exact ⟨_, List.mem_cons_self, List.mem_cons_self⟩
        · obtain ⟨piece, hpiece, hmem⟩ := ih hc
          rw [hpieces] at hpiece
          rcases List.mem_cons.mp hpiece with rfl | hpiece
          · exact ⟨_, List.mem_cons_self, List.mem_cons_of_mem _ hmem⟩
          · exact ⟨piece, List.mem_cons_of_mem _ hpiece, hmem⟩

/-- There is something in the text, and nothing to drop at either end. -/
structure IsBareOf (q : Char → Bool) (s : List Char) : Prop where
  nonempty : s ≠ []
  head : ∀ c ∈ s.head?, q c = false
  last : ∀ c ∈ s.getLast?, q c = false

theorem IsBareOf.strip (h : IsBareOf q s) : Text.strip q s = s :=
  strip_eq_self_iff.mpr ⟨h.head, h.last⟩

theorem IsBareOf.intercalate {parts : List (List Char)} (hparts : parts ≠ [])
    (h : ∀ part ∈ parts, IsBareOf q part) (sep : List Char) :
    IsBareOf q (sep.intercalate parts) := by
  induction parts with
  | nil => exact absurd rfl hparts
  | cons first others ih =>
    obtain ⟨hfirst, hothers⟩ := List.forall_mem_cons.mp h
    cases others with
    | nil =>
      rw [List.intercalate_singleton]
      exact hfirst
    | cons second others =>
      have hrest := ih (List.cons_ne_nil _ _) hothers
      rw [List.intercalate_cons_cons, List.append_assoc]
      refine ⟨by simp [hfirst.nonempty], fun c hc => ?_, fun c hc => ?_⟩
      · rw [List.head?_append_of_ne_nil _ hfirst.nonempty] at hc
        exact hfirst.head c hc
      · rw [← List.append_assoc, List.getLast?_append_of_ne_nil _ hrest.nonempty] at hc
        exact hrest.last c hc

theorem strip_of_pieces {c : Char} (h : ∀ piece ∈ pieces (· == c) s, IsBareOf q piece) :
    strip q s = s := by
  have hne : pieces (· == c) s ≠ [] := by
    rw [pieces_eq_splitOnP]
    exact List.splitOnP_ne_nil _ s
  have hbare := IsBareOf.intercalate hne h [c]
  rw [intercalate_pieces] at hbare
  exact hbare.strip

end Text

namespace ServiceList

/-! ## 3. Parsing and splitting -/

variable {s : List Char}

theorem length_cleanName_le (piece : List Char) : (cleanName piece).length ≤ piece.length :=
  (Text.length_strip_le _ _).trans (Text.length_strip_le _ _)

/-- A name that is written as it is has nothing at its ends that would be dropped. -/
theorem cleanName_eq_self_iff :
    cleanName s = s ↔ Text.strip (· == '"') s = s ∧ Text.trim s = s := by
  constructor
  · intro h
    have hquotes : Text.strip (· == '"') s = s := by
      refine Text.strip_of_length ?_
      calc s.length = (cleanName s).length := by rw [h]
        _ ≤ _ := Text.length_strip_le _ _
    rw [cleanName, hquotes] at h
    exact ⟨hquotes, h⟩
  · rintro ⟨hquotes, hblanks⟩
    rw [cleanName, hquotes, hblanks]

theorem keepFirst_sublist {α : Type} [DecidableEq α] (l : List α) :
    List.Sublist (keepFirst l) l := by
  induction l with
  | nil => exact .slnil
  | cons a l ih => exact (List.filter_sublist.trans ih).cons_cons a

/-- The pieces of a text between its commas. -/
def commaPieces (s : String) : List String :=
  (Text.pieces (· == ',') s.toList).map String.ofList

/-- A name that is read as it is written. -/
structure IsPlainName (name : List Char) : Prop where
  nonempty : name ≠ []
  unspaced : ' ' ∉ name
  unquoted : Text.strip (· == '"') name = name
  trimmed : Text.trim name = name

/-- Different plain names with single commas between them and no introduction. -/
structure IsPlainList (s : String) : Prop where
  names : ∀ piece ∈ Text.pieces (· == ',') s.toList, IsPlainName piece
  distinct : (Text.pieces (· == ',') s.toList).Nodup
  plain : ¬introduction <+: s.toList

theorem parse_eq_commaPieces (s : String) :
    parse s = commaPieces s ↔ parseChars s.toList = Text.pieces (· == ',') s.toList := by
  rw [parse, commaPieces]
  exact (List.map_injective_iff.mpr fun _ _ => String.ofList_inj.mp).eq_iff

/-- Without spaces the commas are the separators. -/
theorem pieces_of_unspaced (h : ' ' ∉ s) :
    Text.pieces isSeparator s = Text.pieces (· == ',') s := by
  refine Text.pieces_congr fun c hc => ?_
  have hne : c ≠ ' ' := by
    rintro rfl
    exact h hc
  rw [isSeparator, beq_eq_false_iff_ne.mpr hne, Bool.false_or]

theorem unspaced_of_pieces (h : ∀ piece ∈ Text.pieces (· == ',') s, ' ' ∉ piece) : ' ' ∉ s := by
  intro hmem
  obtain ⟨piece, hpiece, hin⟩ := Text.mem_pieces_of_mem (p := (· == ',')) hmem rfl
  exact h piece hpiece hin

theorem IsPlainName.isBareOf {name : List Char} (h : IsPlainName name) :
    Text.IsBareOf Text.isBlank name :=
  have hends := Text.strip_eq_self_iff.mp h.trimmed
  ⟨h.nonempty, hends.1, hends.2⟩

theorem parseChars_of_plain {s : String} (h : IsPlainList s) :
    parseChars s.toList = Text.pieces (· == ',') s.toList := by
  have htrim : Text.trim s.toList = s.toList :=
    Text.strip_of_pieces fun piece hpiece => (h.names piece hpiece).isBareOf
  have hdrop : dropIntroduction s.toList = s.toList :=
    if_neg fun hfront => h.plain (List.isPrefixOf_iff_prefix.mp hfront)
  have hunspaced : ' ' ∉ s.toList :=
    unspaced_of_pieces fun piece hpiece => (h.names piece hpiece).unspaced
  have hclean : (Text.pieces (· == ',') s.toList).map cleanName =
      Text.pieces (· == ',') s.toList := by
    refine List.map_congr_left (fun piece hpiece => ?_) |>.trans (List.map_id _)
    exact cleanName_eq_self_iff.mpr
      ⟨(h.names piece hpiece).unquoted, (h.names piece hpiece).trimmed⟩
  have hfilter : (Text.pieces (· == ',') s.toList).filter (· ≠ []) =
      Text.pieces (· == ',') s.toList :=
    List.filter_eq_self.mpr fun piece hpiece => decide_eq_true (h.names piece hpiece).nonempty
  rw [parseChars, htrim, hdrop, pieces_of_unspaced hunspaced, hclean, hfilter,
    keepFirst_of_nodup h.distinct]

theorem map_cleanName_of_keepFirst {pieces pieces' : List (List Char)}
    (h : keepFirst ((pieces'.map cleanName).filter (· ≠ [])) = pieces)
    (hlength : pieces.length = pieces'.length) : pieces'.map cleanName = pieces := by
  have hsub : List.Sublist pieces (pieces'.map cleanName) :=
    h ▸ (keepFirst_sublist _).trans List.filter_sublist
  exact (hsub.eq_of_length (by rw [hlength, List.length_map])).symm

/-- A text that is parsed into its pieces is not introduced: the first of them would have lost its
beginning. -/
theorem plain_of_parse (hunspaced : ' ' ∉ s) (htrim : Text.trim s = s)
    (h : parseChars s = Text.pieces (· == ',') s) :
    ¬introduction <+: s ∧ (Text.pieces (· == ',') s).map cleanName = Text.pieces (· == ',') s := by
  rw [parseChars, htrim] at h
  have hall : introduction.all (fun c => !(c == ',')) = true := by rfl
  have hfree : ∀ c ∈ introduction, (c == ',') = false :=
    fun c hc => by simpa using List.all_eq_true.mp hall c hc
  by_cases hfront : introduction <+: s
  · obtain ⟨rest, rfl⟩ := hfront
    have hdrop : dropIntroduction (introduction ++ rest) = rest := by
      rw [dropIntroduction, if_pos (List.isPrefixOf_iff_prefix.mpr (List.prefix_append _ _)),
        List.drop_left]
    rw [hdrop, pieces_of_unspaced fun hmem => hunspaced (List.mem_append_right _ hmem),
      Text.pieces_append hfree] at h
    have hsame := map_cleanName_of_keepFirst h (by rw [List.length_modifyHead])
    cases hpieces : Text.pieces (· == ',') rest with
    | nil =>
      rw [Text.pieces_eq_splitOnP] at hpieces
      exact absurd hpieces (List.splitOnP_ne_nil _ rest)
    | cons first others =>
      rw [hpieces, List.modifyHead_cons, List.map_cons] at hsame
      -- Cleaning does not prolong a piece, and the first one has the introduction in front.
      have hlength := congrArg List.length (List.cons.inj hsame).1
      have hle := length_cleanName_le first
      rw [List.length_append, show introduction.length = 9 from rfl] at hlength
      omega
  · have hdrop : dropIntroduction s = s :=
      if_neg fun h => hfront (List.isPrefixOf_iff_prefix.mp h)
    rw [hdrop, pieces_of_unspaced hunspaced] at h
    exact ⟨hfront, map_cleanName_of_keepFirst h rfl⟩

/-- A text is parsed into the pieces between its commas exactly if these are different plain names
and there is no introduction. -/
theorem parse_eq_commaPieces_iff (s : String) : parse s = commaPieces s ↔ IsPlainList s := by
  rw [parse_eq_commaPieces]
  refine ⟨fun h => ?_, parseChars_of_plain⟩
  have htrimmed : ∀ piece ∈ Text.pieces (· == ',') s.toList,
      ' ' ∉ piece ∧ Text.IsBareOf Text.isBlank piece := by
    intro piece hpiece
    have hname : IsTrimmed (String.ofList piece) := by
      have hmem : String.ofList piece ∈ parse s :=
        (parse_eq_commaPieces s).mpr h ▸ List.mem_map_of_mem hpiece
      exact isTrimmed_of_mem hmem
    obtain ⟨hne, hunbroken, hhead, hlast⟩ := hname
    rw [String.toList_ofList] at hunbroken hhead hlast
    exact ⟨fun hmem => absurd (hunbroken ' ' hmem) (by decide), by simpa using hne, hhead, hlast⟩
  have hunspaced := unspaced_of_pieces fun piece hpiece => (htrimmed piece hpiece).1
  have htrim : Text.trim s.toList = s.toList :=
    Text.strip_of_pieces fun piece hpiece => (htrimmed piece hpiece).2
  obtain ⟨hplain, hclean⟩ := plain_of_parse hunspaced htrim h
  refine ⟨fun piece hpiece => ?_, ?_, hplain⟩
  · have hname : cleanName piece = piece := by
      have hall := List.map_eq_map_iff.mp (hclean.trans (List.map_id _).symm)
      exact hall piece hpiece
    obtain ⟨hquotes, hblanks⟩ := cleanName_eq_self_iff.mp hname
    exact ⟨(htrimmed piece hpiece).2.nonempty, (htrimmed piece hpiece).1, hquotes, hblanks⟩
  · rw [← h]
    exact nodup_keepFirst _

example : parse "GSC,GSM" = commaPieces "GSC,GSM" ∧ parse "GSC GSM" ≠ commaPieces "GSC GSM" := by
  decide +kernel

end ServiceList

end SupervisedWorker
