import SupervisedWorker.Proofs.Settings.Fields
import SupervisedWorker.Proofs.Text.Lowercase

/-!
# What the sources set

Loading settings is setting values in an empty tree, first those of the file and then those of the
variables, and decoding the tree. A key stands for the entry of a table exactly if it is the names
of the two with a dot between them.

Results:
1. `ofKey_word`, `ofKey_pair`, `eq_of_ofKey_word`, `eq_of_ofKey_pair`: keys of tables and of
   entries.
2. `load_eq_ok_iff`: what loading is; `load_default`: loading without sources.
3. `ofKey_table`, `ofKey_key`, `key?_variable`: the keys of all tables and fields, and the variables
   of the fields.
-/

namespace SupervisedWorker

namespace Settings

/-! ## 1. Keys of tables and entries -/

namespace KeyPath

/-- A text that can be a name in a path. -/
def IsWord (s : String) : Prop := s ≠ "" ∧ ∀ c ∈ s.toList, isNameChar c = true

instance (s : String) : Decidable (IsWord s) := inferInstanceAs (Decidable (_ ∧ _))

variable {s name key : String} {rest : List Char} {path : List PathStep}

theorem IsWord.ne_nil (h : IsWord s) : s.toList ≠ [] := by simpa using h.1

theorem takeWhile_word (h : IsWord s) (hrest : ∀ c ∈ rest.head?, isNameChar c = false) :
    (s.toList ++ rest).takeWhile isNameChar = s.toList := by
  rw [List.takeWhile_append_of_pos h.2]
  cases rest with
  | nil => simp
  | cons c rest => rw [List.takeWhile_cons_of_neg (by simpa using hrest c rfl), List.append_nil]

theorem steps_word (h : IsWord s) (hrest : ∀ c ∈ rest.head?, isNameChar c = false) :
    steps ('.' :: (s.toList ++ rest)) = (steps rest).map (.key s :: ·) := by
  rw [steps, takeWhile_word h hrest, if_neg h.ne_nil, List.drop_left, String.ofList_toList]

theorem parse?_word (h : IsWord s) (hkey : key.toList = s.toList ++ rest)
    (hrest : ∀ c ∈ rest.head?, isNameChar c = false) :
    parse? key = (steps rest).map (.key s :: ·) := by
  rw [parse?, hkey, takeWhile_word h hrest]
  simp only [if_neg h.ne_nil, List.drop_left, String.ofList_toList]

theorem steps_nil : steps [] = some [] := by rw [steps]

theorem ofKey_word (h : IsWord s) : ofKey s = [.key s] := by
  rw [ofKey, parse?_word h (List.append_nil _).symm (by simp), steps_nil]
  rfl

/-- A key of two names and further steps. -/
theorem ofKey_of_steps (hs : IsWord s) (hname : IsWord name)
    (hkey : key.toList = s.toList ++ '.' :: (name.toList ++ rest))
    (hrest : ∀ c ∈ rest.head?, isNameChar c = false) (hsteps : steps rest = some path) :
    ofKey key = .key s :: .key name :: path := by
  have hdot : ∀ c ∈ ('.' :: (name.toList ++ rest)).head?, isNameChar c = false := by
    rintro c ⟨⟩
    decide
  rw [ofKey, parse?_word hs hkey hdot, steps_word hname hrest, hsteps]
  rfl

theorem ofKey_pair (hs : IsWord s) (hname : IsWord name) :
    ofKey (s ++ "." ++ name) = [.key s, .key name] := by
  refine ofKey_of_steps hs hname ?_ (by simp) steps_nil
  rw [String.toList_append, String.toList_append, List.append_nil, List.append_assoc]
  rfl

theorem takeWhile_append_drop (p : Char → Bool) (s : List Char) :
    s.takeWhile p ++ s.drop (s.takeWhile p).length = s :=
  List.prefix_iff_eq_append.mp (List.takeWhile_prefix p)

/-- What steps are read from: the first of them is a dot and a name, or a place. -/
theorem steps_cases (h : steps rest = some path) :
    (rest = [] ∧ path = []) ∨
      (∃ name rest' path', rest = '.' :: (String.toList name ++ rest') ∧
        steps rest' = some path' ∧ path = .key name :: path') ∨
      ∃ place path', path = .index place :: path' := by
  unfold steps at h
  split at h
  · exact .inl ⟨rfl, (Option.some.inj h).symm⟩
  · rename_i rest
    dsimp only at h
    split at h
    · cases h
    · obtain ⟨path', hpath, rfl⟩ := Option.map_eq_some_iff.mp h
      have hrest : '.' :: rest = '.' :: ((String.ofList (rest.takeWhile isNameChar)).toList ++
          rest.drop (rest.takeWhile isNameChar).length) := by
        rw [String.toList_ofList, takeWhile_append_drop]
      exact .inr (.inl ⟨_, _, path', hrest, hpath, rfl⟩)
  · dsimp only at h
    split at h
    · simp only [Option.bind_eq_bind, Option.bind_eq_some_iff] at h
      obtain ⟨place, -, path', -, hcons⟩ := h
      exact .inr (.inr ⟨place, path', (Option.some.inj hcons).symm⟩)
    · cases h
  · cases h

theorem eq_nil_of_steps (h : steps rest = some []) : rest = [] := by
  rcases steps_cases h with ⟨rfl, -⟩ | ⟨_, _, _, _, _, hcons⟩ | ⟨_, _, hcons⟩
  · rfl
  · cases hcons
  · cases hcons

theorem eq_of_steps (h : steps rest = some (.key name :: path)) :
    ∃ rest', rest = '.' :: (name.toList ++ rest') ∧ steps rest' = some path := by
  rcases steps_cases h with ⟨-, hnil⟩ | ⟨_, rest', _, hrest, hsteps, hcons⟩ | ⟨_, _, hcons⟩
  · cases hnil
  · cases hcons
    exact ⟨rest', hrest, hsteps⟩
  · cases hcons

/-- A path begins with the name that its key begins with. -/
theorem eq_of_ofKey (h : ofKey key = .key s :: path) :
    (key = s ∧ path = []) ∨ ∃ rest, key.toList = s.toList ++ rest ∧ steps rest = some path := by
  rw [ofKey] at h
  cases hparse : parse? key with
  | none =>
    rw [hparse] at h
    cases h
    exact .inl ⟨rfl, rfl⟩
  | some path' =>
    rw [hparse] at h
    obtain rfl : path' = .key s :: path := h
    unfold parse? at hparse
    dsimp only at hparse
    split at hparse
    · cases hparse
    · obtain ⟨path', hpath, hcons⟩ := Option.map_eq_some_iff.mp hparse
      obtain ⟨hname, rfl⟩ := List.cons.inj hcons
      refine .inr ⟨_, ?_, hpath⟩
      rw [← PathStep.key.inj hname, String.toList_ofList, takeWhile_append_drop]

theorem eq_of_ofKey_word (h : ofKey key = [.key s]) : key = s := by
  rcases eq_of_ofKey h with ⟨hkey, -⟩ | ⟨rest, hkey, hsteps⟩
  · exact hkey
  · rw [eq_nil_of_steps hsteps, List.append_nil] at hkey
    exact String.toList_inj.mp hkey

theorem eq_of_ofKey_pair (h : ofKey key = [.key s, .key name]) : key = s ++ "." ++ name := by
  rcases eq_of_ofKey h with ⟨-, hnil⟩ | ⟨rest, hkey, hsteps⟩
  · cases hnil
  · obtain ⟨rest', rfl, hsteps'⟩ := eq_of_steps hsteps
    rw [eq_nil_of_steps hsteps', List.append_nil] at hkey
    refine String.toList_inj.mp (hkey.trans ?_)
    rw [String.toList_append, String.toList_append, List.append_assoc]
    rfl

end KeyPath

/-! ## 2. What loading is -/

open Settings.Tree

/-- The values that the entries of a file set. -/
def fromFile (origin : String) (entries : List (String × Toml.Value)) : List Assignment :=
  entries.map fun e => (KeyPath.ofKey e.1, ofToml origin e.2)

/-- The values that variables set. -/
def fromVariables (environment : List (String × String)) : List Assignment :=
  environment.filterMap fun x =>
    (Environment.key? x.1).map fun key => (KeyPath.ofKey key, Environment.guess key x.2)

/-- What is in the file; where there is none, nothing is. -/
def Holds : Option SourceFile → List (String × Toml.Value) → Prop
  | none, entries => entries = []
  | some file, entries => Toml.read file.content.toList = some entries

/-- The name that messages give to the file. -/
def originOf (file : Option SourceFile) : String := (file.map SourceFile.name).getD ""

theorem ofTomlEntries_eq (origin : String) (entries : List (String × Toml.Value)) :
    ofTomlEntries origin entries = entries.map fun e => (e.1, ofToml origin e.2) := by
  induction entries with
  | nil => rw [ofTomlEntries]; rfl
  | cons e rest ih => rw [ofTomlEntries, ih]; rfl

theorem fromVariables_append (before after : List (String × String)) :
    fromVariables (before ++ after) = fromVariables before ++ fromVariables after :=
  List.filterMap_append

theorem fromVariables_cons {name key : String} (h : Environment.key? name = some key)
    (value : String) (rest : List (String × String)) : fromVariables ((name, value) :: rest) =
      (KeyPath.ofKey key, Environment.guess key value) :: fromVariables rest := by
  rw [fromVariables, List.filterMap_cons, h]
  rfl

theorem mem_fromVariables {environment : List (String × String)} {a : Assignment} :
    a ∈ fromVariables environment ↔ ∃ v ∈ environment, ∃ key, Environment.key? v.1 = some key ∧
      (KeyPath.ofKey key, Environment.guess key v.2) = a := by
  simp only [fromVariables, List.mem_filterMap, Option.map_eq_some_iff]

/-- A variable sets a single value or a list. -/
theorem not_isTable_guess (key value : String) : ¬(Environment.guess key value).IsTable := by
  unfold Environment.guess
  dsimp only
  split
  · exact id
  split
  · exact id
  split
  · exact id
  split
  · exact id
  split <;> exact id

theorem apply_variables (environment : List (String × String)) (t : Tree) :
    Environment.apply environment t = setAll (fromVariables environment) t := by
  induction environment generalizing t with
  | nil => rfl
  | cons x rest ih =>
    obtain ⟨name, value⟩ := x
    rw [Environment.apply, List.foldl_cons, ← Environment.apply, ih, fromVariables, fromVariables,
      List.filterMap_cons]
    cases hkey : Environment.key? name with
    | none => simp only [hkey, Option.map_none]
    | some key => simp only [hkey, Option.map_some, setAll, List.foldl_cons]

theorem gather_eq_ok_iff {file : Option SourceFile} {environment : List (String × String)}
    {t : Tree} : gather file environment = .ok t ↔ ∃ entries, Holds file entries ∧
      t = setAll (fromFile (originOf file) entries ++ fromVariables environment) .emptyTable := by
  have hsplit : ∀ entries, setAll (fromFile (originOf file) entries ++ fromVariables environment)
      .emptyTable = Environment.apply environment (setAll (fromFile (originOf file) entries)
        .emptyTable) := by
    intro entries
    rw [apply_variables, setAll, List.foldl_append]
    rfl
  simp only [hsplit]
  cases file with
  | none =>
    constructor
    · intro h
      exact ⟨[], rfl, (Except.ok.inj h).symm⟩
    · rintro ⟨entries, rfl, rfl⟩
      rfl
  | some file =>
    have hfile : ∀ entries, Toml.read file.content.toList = some entries →
        file.apply .emptyTable = .ok (setAll (fromFile file.name entries) .emptyTable) := by
      intro entries hread
      rw [SourceFile.apply, hread]
      simp only [ofTomlEntries_eq, setAll, fromFile, List.foldl_map]
    rw [gather]
    cases hread : Toml.read file.content.toList with
    | none =>
      have hnone : file.apply .emptyTable = .error .notToml := by rw [SourceFile.apply, hread]
      simp only [hnone, Holds, hread]
      constructor
      · intro h
        cases h
      · rintro ⟨_, h, -⟩
        cases h
    | some entries =>
      simp only [hfile entries hread, Holds, hread, Option.some.injEq]
      constructor
      · intro h
        exact ⟨entries, rfl, (Except.ok.inj h).symm⟩
      · rintro ⟨entries, rfl, rfl⟩
        rfl

/-- Loading is setting all values in an empty tree, those of the file first, and decoding it. -/
theorem load_eq_ok_iff {file : Option SourceFile} {environment : List (String × String)}
    {s : Settings} : load file environment = .ok s ↔ ∃ entries, Holds file entries ∧
      decode (setAll (fromFile (originOf file) entries ++ fromVariables environment)
        .emptyTable) = .ok s := by
  rw [load, bind_eq_ok]
  constructor
  · rintro ⟨t, ht, hdecode⟩
    obtain ⟨entries, hentries, rfl⟩ := gather_eq_ok_iff.mp ht
    exact ⟨entries, hentries, hdecode⟩
  · rintro ⟨entries, hentries, hdecode⟩
    exact ⟨_, gather_eq_ok_iff.mpr ⟨entries, hentries, rfl⟩, hdecode⟩

theorem load_iff_of_holds {file : Option SourceFile} {environment : List (String × String)}
    {s : Settings} {entries : List (String × Toml.Value)} (h : Holds file entries) :
    load file environment = .ok s ↔ decode (setAll (fromFile (originOf file) entries ++
      fromVariables environment) .emptyTable) = .ok s := by
  rw [load_eq_ok_iff]
  constructor
  · rintro ⟨entries', h', hdecode⟩
    cases file with
    | none => rwa [show entries = entries' from h.trans h'.symm]
    | some file => rwa [Option.some.inj (h.symm.trans h')]
  · exact fun hdecode => ⟨entries, h, hdecode⟩

/-- Without sources every field has its default. -/
theorem load_default : load none [] = .ok default :=
  load_eq_ok_iff.mpr ⟨[], rfl, decode_eq_ok_iff.mpr fun _ _ => Field.read_of_none rfl⟩

/-! ## 3. The names of the fields -/

/-- Small letters, in the name also underscores, of which no two come together. -/
def plainNames (table name : List Char) : Bool :=
  !table.isEmpty && !name.isEmpty && table.all Char.isLower &&
    name.all (fun c => c.isLower || c == '_') && Environment.dots name == name

theorem plainNames_known : ∀ f ∈ known, plainNames f.2.table.toList f.2.name.toList = true := by
  have hall : known.all (fun f => plainNames f.2.table.toList f.2.name.toList) = true := by
    decide +kernel
  exact List.all_eq_true.mp hall

theorem isNameChar_of_isLower {c : Char} (h : c.isLower = true) : KeyPath.isNameChar c = true := by
  simp [KeyPath.isNameChar, Char.isAlphanum, Char.isAlpha, h]

/-- Tables and fields have names that can stand in paths. -/
theorem names_known : ∀ f ∈ known, KeyPath.IsWord f.2.table ∧ KeyPath.IsWord f.2.name := by
  intro f hf
  have h := plainNames_known f hf
  simp only [plainNames, Bool.and_eq_true, Bool.not_eq_true', List.isEmpty_eq_false_iff,
    List.all_eq_true, Bool.or_eq_true, beq_iff_eq, ne_eq, String.toList_eq_nil_iff] at h
  obtain ⟨⟨⟨⟨htable, hname⟩, htable'⟩, hname'⟩, -⟩ := h
  refine ⟨⟨htable, fun c hc => isNameChar_of_isLower (htable' c hc)⟩, hname, fun c hc => ?_⟩
  rcases hname' c hc with hlower | rfl
  · exact isNameChar_of_isLower hlower
  · decide

/-- A table is reached by its name. -/
theorem ofKey_table : ∀ f ∈ known, KeyPath.ofKey f.2.table = [.key f.2.table] :=
  fun f hf => KeyPath.ofKey_word (names_known f hf).1

/-- A field is reached by its key. -/
theorem ofKey_key : ∀ f ∈ known, KeyPath.ofKey f.2.key = [.key f.2.table, .key f.2.name] :=
  fun f hf => KeyPath.ofKey_pair (names_known f hf).1 (names_known f hf).2

/-- The name of the variable of a field, in capitals. -/
def Field.variableName {α : Type} (f : Field α) : String :=
  String.ofList ((Environment.head ++ (f.table.toList ++ '_' :: '_' :: f.name.toList)).map
    Char.toUpper)

theorem toNat_lt_of_isUpper {c : Char} (h : c.isUpper = true) : c.toNat < 128 := by
  simp [Char.isUpper, UInt32.le_iff_toNat_le] at h
  omega

example : Field.completionToken.variableName = "WORKER__SHUTDOWN__COMPLETION_TOKEN" := by
  decide +kernel

/-- Small letters and underscores become capitals and back. -/
theorem toUpper_of_plain {c : Char} (h : c.isLower = true ∨ c = '_') :
    (c.toUpper.isUpper = true ∨ c.toUpper = '_') ∧ c.toUpper.toLower = c := by
  rcases h with h | rfl
  · have hupper : c.toUpper.isUpper = true := by simp [Char.isAlpha, h]
    rw [Char.toLower_toUpper_eq_toLower,
      Char.toLower_eq_of_not_isUpper (Char.not_isUpper_of_isLower h)]
    exact ⟨.inl hupper, rfl⟩
  · decide

theorem plain_of_known {f : Σ α : Type, Field α} (hf : f ∈ known) : ∀ c ∈ Environment.head ++
    (f.2.table.toList ++ '_' :: '_' :: f.2.name.toList), c.isLower = true ∨ c = '_' := by
  have h := plainNames_known f hf
  simp only [plainNames, Bool.and_eq_true, List.all_eq_true, Bool.or_eq_true, beq_iff_eq] at h
  obtain ⟨⟨⟨-, htable⟩, hname⟩, -⟩ := h
  have hhead : Environment.head.all (fun c => c.isLower || c == '_') = true := by decide +kernel
  simp only [List.all_eq_true, Bool.or_eq_true, beq_iff_eq] at hhead
  simp only [List.forall_mem_append, List.forall_mem_cons, or_true, true_and]
  exact ⟨hhead, fun c hc => .inl (htable c hc), hname⟩

theorem isUpper_of_mem_variableName {f : Σ α : Type, Field α} (hf : f ∈ known) :
    ∀ c ∈ f.2.variableName.toList, c.isUpper = true ∨ c = '_' := by
  rw [Field.variableName, String.toList_ofList, List.forall_mem_map]
  exact fun c hc => (toUpper_of_plain (plain_of_known hf c hc)).1

theorem dots_table {table : List Char} (h : '_' ∉ table) (s : List Char) :
    Environment.dots (table ++ '_' :: '_' :: s) = table ++ '.' :: Environment.dots s := by
  induction table with
  | nil => rfl
  | cons c table ih =>
    rw [List.mem_cons, not_or] at h
    rw [List.cons_append, Environment.dots, ih h.2]
    · rfl
    · rintro s rfl
      exact absurd rfl h.1

/-- The variable of a field stands for its key. -/
theorem key?_variable : ∀ f ∈ known, Environment.key? f.2.variableName = some f.2.key := by
  intro f hf
  have h := plainNames_known f hf
  simp only [plainNames, Bool.and_eq_true, List.all_eq_true, beq_iff_eq] at h
  obtain ⟨⟨⟨-, htable⟩, -⟩, hdots⟩ := h
  have hascii : ∀ c ∈ f.2.variableName.toList, c.toNat < 128 := by
    intro c hc
    rcases isUpper_of_mem_variableName hf c hc with hupper | rfl
    · exact toNat_lt_of_isUpper hupper
    · decide
  have hlower : Text.lower f.2.variableName =
      String.ofList (Environment.head ++ (f.2.table.toList ++ '_' :: '_' :: f.2.name.toList)) := by
    have hlowered := Text.lower_ascii hascii
    rw [String.ofList_toList] at hlowered
    rw [hlowered, Field.variableName, String.toList_ofList, List.map_map]
    refine congrArg String.ofList ((List.map_congr_left fun c hc => ?_).trans (List.map_id _))
    exact (toUpper_of_plain (plain_of_known hf c hc)).2
  have hnone : '_' ∉ f.2.table.toList := fun hc => absurd (htable _ hc) (by decide)
  rw [Environment.key?, hlower, String.toList_ofList,
    if_pos (List.isPrefixOf_iff_prefix.mpr (List.prefix_append _ _)), List.drop_left,
    dots_table hnone, hdots, Field.key]
  refine congrArg some (String.toList_inj.mp ?_)
  rw [String.toList_ofList, String.toList_append, String.toList_append, List.append_assoc]
  rfl

end Settings

end SupervisedWorker
