import SupervisedWorker.Proofs.Number.Numeral
import SupervisedWorker.Proofs.Settings.Sources

/-!
# Texts in variables

The text of a variable is taken for a truth value or a number where it can be one, and a field that
is a text gets the text of that value. So a text arrives as it was given exactly if it is no such
value or is written as the value's own text is.

Results:
1. `guess_of_ne`, `arrived_eq_iff`: what a variable sets, and which texts arrive as they are.
2. `Given.setAll`: a variable makes no difference but to its own entry, and to its table where that
   was none.
3. `load_text`: what a text of a variable is loaded as; `token_changed`: one that arrives changed.
-/

namespace SupervisedWorker

/-! ## 1. What a text is taken for -/

namespace Settings

/-- The text of a value. -/
def Scalar.plain : Scalar → String
  | .boolean b => if b then "true" else "false"
  | .integer n => toString n
  | .decimal x => x.text
  | .text s => s

theorem decodeText_scalar (key : String) (origin : Option String) (v : Scalar) :
    decodeText key (.scalar origin v) = .ok v.plain := by
  cases v <;> rfl

namespace Environment

/-- The truth value or number that the text of a variable is taken for. -/
def reading? (s : String) : Option Scalar :=
  if Text.lower s = "true" then some (.boolean true)
  else if Text.lower s = "false" then some (.boolean false)
  else ((integer? s.toList).map .integer).or ((Numeral.decimal s.toList).map .decimal)

/-- What the text of a variable becomes in a field that is a text. -/
def arrived (s : String) : String := ((reading? s).getD (.text s)).plain

/-- Outside of the list a variable sets a single value. -/
theorem guess_of_ne {key : String} (h : key ≠ listKey) (s : String) :
    guess key s = .scalar (some origin) ((reading? s).getD (.text s)) := by
  rw [guess, reading?]
  by_cases htrue : Text.lower s = "true"
  · rw [if_pos htrue, if_pos htrue]
    rfl
  by_cases hfalse : Text.lower s = "false"
  · rw [if_neg htrue, if_neg htrue, if_pos hfalse, if_pos hfalse]
    rfl
  rw [if_neg htrue, if_neg htrue, if_neg hfalse, if_neg hfalse, if_neg h]
  cases integer? s.toList <;> cases Numeral.decimal s.toList <;> rfl

theorem decodeText_guess {key : String} (h : key ≠ listKey) (key' s : String) :
    decodeText key' (guess key s) = .ok (arrived s) := by
  rw [guess_of_ne h, decodeText_scalar, arrived]

/-- The texts that are taken for no value, and those that are written as the text of the value that
they are taken for is. -/
inductive Canonical : String → Prop
  | word (b : Bool) : Canonical (if b then "true" else "false")
  | integer {n : Int} : Numeral.signed64 n = some n → Canonical (toString n)
  | decimal {s : String} {x : Binary64} : reading? s = some (.decimal x) → x.text = s → Canonical s
  | text {s : String} : reading? s = none → Canonical s

theorem integer?_toString {n : Int} (h : Numeral.signed64 n = some n) :
    integer? (toString n).toList = some n := by
  rw [integer?, Numeral.whole_toString]
  exact h

theorem signed64_of_integer? {s : List Char} {n : Int} (h : integer? s = some n) :
    Numeral.signed64 n = some n := by
  obtain ⟨m, -, hm⟩ := Option.bind_eq_some_iff.mp h
  have hmn : m = n := by
    unfold Numeral.signed64 at hm
    split at hm
    · exact Option.some.inj hm
    · cases hm
  rwa [hmn] at hm

theorem reading?_word (b : Bool) :
    reading? (if b then "true" else "false") = some (.boolean b) := by
  cases b <;> decide +kernel

theorem reading?_toString {n : Int} (h : Numeral.signed64 n = some n) :
    reading? (toString n) = some (.integer n) := by
  have hletter : ∀ s : String, 'e' ∈ s.toList → Text.lower (toString n) ≠ s := by
    intro s hs heq
    rw [Numeral.lower_toString] at heq
    exact absurd (Numeral.isDigit_or_of_mem_toString 'e' (heq ▸ hs)) (by decide)
  rw [reading?, if_neg (hletter "true" (by decide)), if_neg (hletter "false" (by decide)),
    integer?_toString h]
  rfl

/-- What a text is taken for is no text, and an integer only of 64 bits. -/
theorem reading?_eq_some {s : String} {v : Scalar} (h : reading? s = some v) :
    (∃ b, v = .boolean b) ∨ (∃ n, v = .integer n ∧ Numeral.signed64 n = some n) ∨
      ∃ x, v = .decimal x := by
  rw [reading?] at h
  split at h
  · exact .inl ⟨true, (Option.some.inj h).symm⟩
  split at h
  · exact .inl ⟨false, (Option.some.inj h).symm⟩
  rcases Option.or_eq_some_iff.mp h with hinteger | ⟨-, hdecimal⟩
  · obtain ⟨n, hn, rfl⟩ := Option.map_eq_some_iff.mp hinteger
    exact .inr (.inl ⟨n, rfl, signed64_of_integer? hn⟩)
  · obtain ⟨x, -, rfl⟩ := Option.map_eq_some_iff.mp hdecimal
    exact .inr (.inr ⟨x, rfl⟩)

/-- Which texts arrive as they were given. -/
theorem arrived_eq_iff (s : String) : arrived s = s ↔ Canonical s := by
  constructor
  · intro h
    rw [arrived] at h
    cases hread : reading? s with
    | none => exact .text hread
    | some v =>
      rw [hread, Option.getD_some] at h
      rcases reading?_eq_some hread with ⟨b, rfl⟩ | ⟨n, rfl, hn⟩ | ⟨x, rfl⟩
      · exact h ▸ .word b
      · exact h ▸ .integer hn
      · exact .decimal hread h
  · rintro (b | hn | ⟨hread, hx⟩ | hread)
    · rw [arrived, reading?_word]
      rfl
    · rw [arrived, reading?_toString hn]
      rfl
    · rw [arrived, hread]
      exact hx
    · rw [arrived, hread]
      rfl

end Environment

/-! ## 2. One variable more -/

namespace Tree

/-- The second tree is the first one after something was given to an entry: its table, which the
first may lack, has the other entries that the first has there. -/
structure Given (table name : String) (new t t' : Tree) : Prop where
  elsewhere : ∀ key, key ≠ table → t'.child? key = t.child? key
  isTable : t'.HasTable table
  others : ∀ key, key ≠ name → t'.grandchild? table key = t.grandchild? table key
  own : t'.grandchild? table name = some new

namespace Given

variable {table name : String} {new t t' : Tree}

/-- A tree with an entry in the table has the table. -/
theorem freeFor_of_grandchild? {old : Tree} (h : t.grandchild? table name = some old) :
    t.FreeFor table := by
  obtain ⟨child, hchild, hold⟩ := Option.bind_eq_some_iff.mp h
  cases child with
  | table => exact .inr ⟨_, hchild, trivial⟩
  | unset | scalar _ _ | list _ _ => cases hold

theorem of_set (hnew : ¬new.IsTable) (t : Tree) :
    Given table name new t (t.set [.key table, .key name] new) where
  elsewhere _ hkey := child?_set_of_ne hkey t new
  isTable := hasTable_set t new
  others _ hkey := (Apart.name hkey.symm).grandchild?_set t new
  own := grandchild?_set_self hnew t

/-- What is set elsewhere finds the same in both trees. -/
theorem set (h : Given table name new t t') {path : List PathStep} (hpath : Apart table name path)
    (value : Tree) : Given table name new (t.set path value) (t'.set path value) where
  elsewhere key hkey := by
    cases hpath with
    | @table first rest hne =>
      rw [child?_set, child?_set, h.elsewhere first hne, h.elsewhere key hkey]
    | name => rw [child?_set_of_ne hkey, child?_set_of_ne hkey, h.elsewhere key hkey]
  isTable := hpath.hasTable h.isTable value
  others key hkey := by
    cases hpath with
    | @table first rest hne =>
      have hapart : Apart table key (.key first :: rest) := .table hne
      rw [hapart.grandchild?_set, hapart.grandchild?_set, h.others key hkey]
    | @name second rest hne =>
      rw [grandchild?_set, grandchild?_set, h.others second hne, h.others key hkey]
  own := by rw [hpath.grandchild?_set, h.own]

theorem setAll (h : Given table name new t t') {as : List Assignment}
    (has : ∀ a ∈ as, Apart table name a.1) :
    Given table name new (Tree.setAll as t) (Tree.setAll as t') := by
  induction as generalizing t t' with
  | nil => exact h
  | cons a as ih =>
    rw [List.forall_mem_cons] at has
    exact ih (h.set has.1 a.2) has.2

theorem read_own {f : Σ α : Type, Field α} (h : Given f.2.table f.2.name new t t') :
    f.2.read t' = f.2.decode f.2.key new := by
  rw [Field.read_of_freeFor (.inr h.isTable), h.own]

/-- A field that is not given anything is decoded as before, at least if the table is not new in the
place of something else. -/
theorem read_of_ne {f : Σ α : Type, Field α} (h : Given table name new t t')
    (hne : f.2.table = table → f.2.name ≠ name) (hfree : t.FreeFor table) :
    f.2.read t' = f.2.read t := by
  by_cases htable : f.2.table = table
  · rw [Field.read_of_freeFor (htable ▸ .inr h.isTable), Field.read_of_freeFor (htable ▸ hfree),
      htable, h.others _ (hne htable)]
  · rw [Field.read_congr (h.elsewhere _ htable)]

/-- If all fields are decoded before, and the field from what is given to it, then all are decoded
afterwards. A field of the same table may have had no table before; it has its default then. -/
theorem exists_read {f : Σ α : Type, Field α} (hf : f ∈ known)
    (h : Given f.2.table f.2.name new t t') (hnew : ∃ a, f.2.decode f.2.key new = .ok a)
    (hread : ∀ g ∈ known, ∃ a, g.2.read t = .ok a) : ∀ g ∈ known, ∃ a, g.2.read t' = .ok a := by
  intro g hg
  by_cases htable : g.2.table = f.2.table
  · by_cases hname : g.2.name = f.2.name
    · obtain rfl := eq_of_names hg hf htable hname
      rwa [h.read_own]
    · rw [Field.read_of_freeFor (htable ▸ .inr h.isTable), htable, h.others _ hname]
      obtain ⟨a, ha⟩ := hread g hg
      cases hentry : t.grandchild? f.2.table g.2.name with
      | none => exact ⟨_, rfl⟩
      | some old =>
        rw [Field.read_of_freeFor (htable ▸ freeFor_of_grandchild? hentry), htable, hentry] at ha
        exact ⟨a, ha⟩
  · rw [Field.read_congr (h.elsewhere _ htable)]
    exact hread g hg

end Given

end Tree

/-! ## 3. Texts of variables -/

open Environment Settings.Tree

/-- The fields that are texts. -/
def textFields : List (Field String) :=
  [Field.workDir, Field.logDir, Field.completionToken, Field.probePrefix]

theorem textFields_known : ∀ f ∈ textFields, (⟨String, f⟩ : Σ α : Type, Field α) ∈ known := by
  simp [textFields, known, generalFields, monitorFields, watcherFields, shutdownFields, probeFields]

theorem decode_textFields : ∀ f ∈ textFields, f.decode = decodeText := by
  simp [textFields, Field.workDir, Field.logDir, Field.completionToken, Field.probePrefix,
    Field.ofGeneral, Field.ofShutdown]

theorem key_textFields : ∀ f ∈ textFields, f.key ≠ listKey := by
  decide +kernel

section Load

variable {f : Field String} {name s : String} {before after : List (String × String)}

/-- What becomes of the tree by one variable, if no later one sets something over its value. -/
theorem given_variable {f : Σ α : Type, Field α} (hf : f ∈ known)
    (hname : key? name = some f.2.key)
    (hafter : ∀ v ∈ after, ∀ key, key? v.1 = some key → Apart f.2.table f.2.name (KeyPath.ofKey key))
    (as : List Assignment) : Given f.2.table f.2.name (guess f.2.key s)
      (setAll (as ++ fromVariables (before ++ after)) .emptyTable)
      (setAll (as ++ fromVariables (before ++ (name, s) :: after)) .emptyTable) := by
  have hapart : ∀ a ∈ fromVariables after, Apart f.2.table f.2.name a.1 := by
    intro a ha
    obtain ⟨v, hv, key, hkey, rfl⟩ := mem_fromVariables.mp ha
    exact hafter v hv key hkey
  have hset : ∀ as bs t, setAll (as ++ bs) t = setAll bs (setAll as t) :=
    fun as bs t => List.foldl_append
  rw [fromVariables_append, fromVariables_append, fromVariables_cons hname, ofKey_key f hf]
  simp only [hset]
  exact (Given.of_set (not_isTable_guess f.2.key s) _).setAll hapart

/-- The text that the field is loaded with. -/
theorem get_of_load (hf : f ∈ textFields) (hname : key? name = some f.key)
    (hafter : ∀ v ∈ after, ∀ key, key? v.1 = some key → Apart f.table f.name (KeyPath.ofKey key))
    {file : Option SourceFile} {settings : Settings}
    (h : load file (before ++ (name, s) :: after) = .ok settings) : f.get settings = arrived s := by
  obtain ⟨entries, -, hdecode⟩ := load_eq_ok_iff.mp h
  have hread := decode_eq_ok_iff.mp hdecode ⟨String, f⟩ (textFields_known f hf)
  rw [(given_variable (textFields_known f hf) hname hafter _).read_own, decode_textFields f hf,
    decodeText_guess (key_textFields f hf)] at hread
  exact (Except.ok.inj hread).symm

/-- What is loaded without the variable is loaded with it. -/
theorem exists_load (hf : f ∈ textFields) (hname : key? name = some f.key)
    (hafter : ∀ v ∈ after, ∀ key, key? v.1 = some key → Apart f.table f.name (KeyPath.ofKey key))
    {file : Option SourceFile} (h : ∃ settings, load file (before ++ after) = .ok settings) :
    ∃ settings, load file (before ++ (name, s) :: after) = .ok settings := by
  obtain ⟨settings, hload⟩ := h
  obtain ⟨entries, hentries, hdecode⟩ := load_eq_ok_iff.mp hload
  have hnew : ∃ a, f.decode f.key (guess f.key s) = .ok a := by
    rw [decode_textFields f hf]
    exact ⟨_, decodeText_guess (key_textFields f hf) f.key s⟩
  obtain ⟨settings', hdecode'⟩ := exists_decode
    ((given_variable (textFields_known f hf) hname hafter _).exists_read (textFields_known f hf) hnew
      fun g hg => ⟨_, decode_eq_ok_iff.mp hdecode g hg⟩)
  exact ⟨settings', load_eq_ok_iff.mpr ⟨entries, hentries, hdecode'⟩⟩

end Load

/-- A field that is a text is loaded from its variable, whatever the file says, unless a later one
sets something over it: it gets the text of the value that the variable's text is taken for. That is
the variable's own text exactly if it is `Canonical`. -/
theorem load_text {f : Field String} (hf : f ∈ textFields) {name s : String}
    {before after : List (String × String)} (hname : key? name = some f.key)
    (hafter : ∀ v ∈ after, ∀ key, key? v.1 = some key → Apart f.table f.name (KeyPath.ofKey key))
    (file : Option SourceFile) :
    (∀ settings, load file (before ++ (name, s) :: after) = .ok settings →
      f.get settings = arrived s) ∧
    ((∃ settings, load file (before ++ after) = .ok settings) →
      ∃ settings, load file (before ++ (name, s) :: after) = .ok settings) ∧
    (arrived s = s ↔ Canonical s) ∧
    key? f.variableName = some f.key :=
  ⟨fun _ h => get_of_load hf hname hafter h, exists_load hf hname hafter, arrived_eq_iff s,
    key?_variable ⟨String, f⟩ (textFields_known f hf)⟩

theorem key?_token :
    key? "WORKER__SHUTDOWN__COMPLETION_TOKEN" = some Field.completionToken.key := by decide +kernel

theorem key?_probe : key? "WORKER__PROBE__PREFIX" = some Field.probePrefix.key := by decide +kernel

/-- A plain token, with a variable for another field behind it. -/
theorem load_text_token :
    key? "WORKER__SHUTDOWN__COMPLETION_TOKEN" = some Field.completionToken.key ∧
    ∃ settings, load none [("WORKER__SHUTDOWN__COMPLETION_TOKEN", "stopped"),
        ("WORKER__PROBE__PREFIX", "gsa")] = .ok settings ∧
      settings.shutdown.completionToken = "stopped" ∧ Canonical "stopped" := by
  have htoken : Field.completionToken ∈ textFields := by simp [textFields]
  have hprobe : Field.probePrefix ∈ textFields := by simp [textFields]
  have hafter : ∀ v ∈ [("WORKER__PROBE__PREFIX", "gsa")], ∀ key, key? v.1 = some key →
      Apart Field.completionToken.table Field.completionToken.name (KeyPath.ofKey key) := by
    intro v hv key hkey
    obtain rfl := List.mem_singleton.mp hv
    obtain rfl := Option.some.inj (key?_probe.symm.trans hkey)
    rw [ofKey_key ⟨String, Field.probePrefix⟩ (textFields_known _ hprobe)]
    exact .table (by decide)
  obtain ⟨hget, hload, hcanonical, -⟩ :=
    @load_text _ htoken _ "stopped" [] _ key?_token hafter none
  have hothers : ∃ settings, load none [("WORKER__PROBE__PREFIX", "gsa")] = .ok settings :=
    @exists_load _ _ "gsa" [] [] hprobe key?_probe nofun none ⟨_, load_default⟩
  have harrived : arrived "stopped" = "stopped" := by decide +kernel
  obtain ⟨settings, hsettings⟩ := hload hothers
  exact ⟨key?_token, settings, hsettings, (hget settings hsettings).trans harrived,
    hcanonical.mp harrived⟩

/-- A token of digits arrives as another one: its needless zeros are gone. -/
theorem token_changed :
    key? "WORKER__SHUTDOWN__COMPLETION_TOKEN" = some Field.completionToken.key ∧
    ∃ settings, load none [("WORKER__SHUTDOWN__COMPLETION_TOKEN", "007")] = .ok settings ∧
      settings.shutdown.completionToken = "7" := by
  have hf : Field.completionToken ∈ textFields := by simp [textFields]
  obtain ⟨settings, hload⟩ : ∃ settings,
      load none [("WORKER__SHUTDOWN__COMPLETION_TOKEN", "007")] = .ok settings :=
    @exists_load _ _ "007" [] [] hf key?_token nofun none ⟨_, load_default⟩
  have hget : settings.shutdown.completionToken = arrived "007" :=
    @get_of_load _ _ "007" [] [] hf key?_token nofun none settings hload
  have harrived : arrived "007" = "7" := by decide +kernel
  exact ⟨key?_token, settings, hload, hget.trans harrived⟩

end Settings

end SupervisedWorker
