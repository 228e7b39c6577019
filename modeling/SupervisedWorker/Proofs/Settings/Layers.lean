import SupervisedWorker.Proofs.Settings.Sources
import SupervisedWorker.Proofs.Toml.Distinct

/-!
# Three layers

A field has the value that its variable gives, else the one that the file gives, else its default,
and no other field makes a difference to it. That holds as long as what is given for a field is of
the field's kind, no key leads into a field or puts something else in the place of a table, and no
source gives a field twice.

Results:
1. `Suits.orderly`: values of the right kind and shape.
2. `mem_given_file`, `mem_given_variables`: what the file and the variables give to a field.
3. `read_layers`: a field after all values were set; `load_layers`: the settings that are loaded.
-/

namespace SupervisedWorker

namespace Settings

open Environment Settings.Tree

/-! ## 1. What may be set -/

/-- A table with no key twice, or no table. -/
def KeysOnce : Tree → Prop
  | .table _ entries => (entries.map Prod.fst).Nodup
  | _ => True

namespace Field

variable {α : Type} {f : Field α} {new : Tree}

/-- The field is decoded from the value. -/
def Takes (f : Field α) (new : Tree) : Prop := ∃ a, f.decode f.key new = .ok a

/-- A value that is set elsewhere, in the place of the field's table or in that of the field is of
the right kind there. -/
inductive Suits (f : Field α) : Assignment → Prop
  | apart {path : List PathStep} {new : Tree} : Apart f.table f.name path → Suits f (path, new)
  | table {origin : Option String} {entries : List (String × Tree)} :
      (∀ new, entries.lookup f.name = some new → f.Takes new) →
      Suits f ([.key f.table], .table origin entries)
  | entry {new : Tree} : f.Takes new → Suits f ([.key f.table, .key f.name], new)

/-- No field is a table. -/
theorem Takes.not_isTable {g : Σ β : Type, Field β} (hg : g ∈ known) (h : g.2.Takes new) :
    ¬new.IsTable := by
  intro htable
  cases new with
  | table origin entries =>
    have hrefuses : ∀ g ∈ known, ∀ key, ∃ e, g.2.decode key (.table origin entries) = .error e := by
      simp only [known, List.forall_mem_append, generalFields, monitorFields, watcherFields,
        shutdownFields, probeFields, List.forall_mem_cons, List.not_mem_nil, false_imp_iff,
        implies_true, and_true]
      refine ⟨⟨?_, ?_, ?_, ?_, ?_⟩, ⟨?_, ?_, ?_, ?_⟩, ⟨?_, ?_, ?_⟩, ⟨?_, ?_, ?_, ?_, ?_⟩, ?_⟩ <;>
        exact fun _ => ⟨_, rfl⟩
    obtain ⟨a, ha⟩ := h
    obtain ⟨e, he⟩ := hrefuses g hg g.2.key
    cases ha.symm.trans he
  | unset | scalar _ _ | list _ _ => exact htable

/-- What is given to the field is of its kind. -/
theorem Suits.takes {a : Assignment} (h : f.Suits a) (hnew : giving f.table f.name a = some new) :
    f.Takes new := by
  cases h with
  | apart hapart =>
    rw [hapart.giving] at hnew
    cases hnew
  | table htakes =>
    rw [giving, if_pos rfl] at hnew
    exact htakes new hnew
  | entry htakes =>
    rw [giving, if_pos ⟨rfl, rfl⟩] at hnew
    exact Option.some.inj hnew ▸ htakes

theorem Suits.orderly {g : Σ β : Type, Field β} (hg : g ∈ known) {a : Assignment}
    (h : g.2.Suits a) (hkeys : KeysOnce a.2) : Orderly g.2.table g.2.name a := by
  cases h with
  | apart hapart => exact .apart hapart
  | table htakes => exact .whole hkeys fun new hnew => (htakes new hnew).not_isTable hg
  | entry htakes => exact .entry (htakes.not_isTable hg)

/-- A table that suits its own fields suits all. -/
theorem suits_table {key : String} {origin : Option String} {entries : List (String × Tree)}
    (h : ∀ g ∈ known, g.2.table = key → ∀ new, entries.lookup g.2.name = some new → g.2.Takes new) :
    ∀ g ∈ known, g.2.Suits ([.key key], .table origin entries) := by
  intro g hg
  by_cases hkey : g.2.table = key
  · subst hkey
    exact .table (h g hg rfl)
  · exact .apart (.table (Ne.symm hkey))

/-- A value that suits its own field suits all. -/
theorem suits_entry {f : Σ β : Type, Field β} (hf : f ∈ known) (h : f.2.Takes new) :
    ∀ g ∈ known, g.2.Suits ([.key f.2.table, .key f.2.name], new) := by
  intro g hg
  by_cases htable : f.2.table = g.2.table
  · by_cases hname : f.2.name = g.2.name
    · obtain rfl := eq_of_names hf hg htable hname
      exact .entry h
    · rw [htable]
      exact .apart (.name hname)
  · exact .apart (.table htable)

end Field

/-! ## 2. What the sources give -/

section Sources

variable {α : Type} {table name origin : String} {entries : List (String × Toml.Value)}
  {environment : List (String × String)}

/-- What a file says about a field: as an entry of the field's table, or under the field's key. -/
def Field.inFile? (f : Field α) (entries : List (String × Toml.Value)) : Option Toml.Value :=
  match entries.lookup f.table with
  | some (.table es) => (es.lookup f.name).or (entries.lookup f.key)
  | _ => entries.lookup f.key

/-- What the variables say about a field. -/
def Field.inVariables? (f : Field α) (environment : List (String × String)) : Option String :=
  (environment.find? fun v => key? v.1 == some f.key).map Prod.snd

theorem lookup_ofTomlEntries (origin : String) (es : List (String × Toml.Value)) (name : String) :
    (ofTomlEntries origin es).lookup name = (es.lookup name).map (ofToml origin) := by
  rw [ofTomlEntries_eq, lookup_map]

theorem giving_eq_some {a : Assignment} {new : Tree} (h : giving table name a = some new) :
    (∃ origin es, a = ([.key table], .table origin es) ∧ es.lookup name = some new) ∨
      a = ([.key table, .key name], new) := by
  unfold giving at h
  split at h
  · split at h
    · rename_i hkey
      exact .inl ⟨_, _, by rw [hkey], h⟩
    · cases h
  · split at h
    · rename_i hkey
      rw [hkey.1, hkey.2, Option.some.inj h]
      exact .inr rfl
    · cases h
  · cases h

theorem ofToml_eq_table {v : Toml.Value} {origin' : Option String} {new : List (String × Tree)}
    (h : ofToml origin v = .table origin' new) :
    ∃ es, v = .table es ∧ new = ofTomlEntries origin es := by
  cases v with
  | table es =>
    rw [ofToml] at h
    cases h
    exact ⟨es, rfl, rfl⟩
  | text | integer | decimal | boolean | moment | list =>
    rw [ofToml] at h
    cases h

theorem inFile?_cases {f : Field α} {v : Toml.Value} (h : f.inFile? entries = some v) :
    (∃ es, entries.lookup f.table = some (.table es) ∧ es.lookup f.name = some v) ∨
      entries.lookup f.key = some v := by
  unfold Field.inFile? at h
  split at h
  · rename_i es hes
    rcases Option.or_eq_some_iff.mp h with hentry | ⟨-, hkey⟩
    · exact .inl ⟨es, hes, hentry⟩
    · exact .inr hkey
  · exact .inr h

variable {f : Σ β : Type, Field β}

/-- What a file gives to a field that it names once. -/
theorem mem_given_file (hf : f ∈ known) (hkeys : (entries.map Prod.fst).Nodup)
    (honce : ∀ es, entries.lookup f.2.table = some (.table es) →
      es.lookup f.2.name = none ∨ entries.lookup f.2.key = none) (new : Tree) :
    new ∈ (fromFile origin entries).filterMap (giving f.2.table f.2.name) ↔
      (f.2.inFile? entries).map (ofToml origin) = some new := by
  simp only [fromFile, List.filterMap_map, List.mem_filterMap, Function.comp_apply,
    Option.map_eq_some_iff]
  constructor
  · rintro ⟨e, he, hgiven⟩
    rcases giving_eq_some hgiven with ⟨_, _, heq, hlookup⟩ | heq
    · obtain ⟨hkey, hnew⟩ := Prod.mk.inj heq
      have htable : e.1 = f.2.table := KeyPath.eq_of_ofKey_word hkey
      obtain ⟨es, hes, rfl⟩ := ofToml_eq_table hnew
      rw [lookup_ofTomlEntries] at hlookup
      obtain ⟨v, hv, rfl⟩ := Option.map_eq_some_iff.mp hlookup
      have hfound : entries.lookup f.2.table = some (.table es) :=
        lookup_of_mem hkeys (htable ▸ hes ▸ he)
      refine ⟨v, ?_, rfl⟩
      rw [Field.inFile?, hfound]
      simp only [hv, Option.some_or]
    · obtain ⟨hkey, rfl⟩ := Prod.mk.inj heq
      have hname : e.1 = f.2.key := KeyPath.eq_of_ofKey_pair hkey
      have hfound : entries.lookup f.2.key = some e.2 := lookup_of_mem hkeys (hname ▸ he)
      refine ⟨e.2, ?_, rfl⟩
      unfold Field.inFile?
      split
      · rename_i es hes
        rcases honce es hes with hnone | hnone
        · rw [hnone, Option.none_or, hfound]
        · cases hnone.symm.trans hfound
      · exact hfound
  · rintro ⟨v, hv, rfl⟩
    rcases inFile?_cases hv with ⟨es, htable, hentry⟩ | hkey
    · refine ⟨_, mem_of_lookup htable, ?_⟩
      rw [ofKey_table f hf, ofToml, giving, if_pos rfl, lookup_ofTomlEntries, hentry]
      rfl
    · refine ⟨_, mem_of_lookup hkey, ?_⟩
      rw [ofKey_key f hf, giving, if_pos ⟨rfl, rfl⟩]

/-- What the variables give to a field if no two of them are for it. -/
theorem mem_given_variables (hf : f ∈ known)
    (honce : ∀ v ∈ environment, ∀ w ∈ environment,
      key? v.1 = some f.2.key → key? w.1 = some f.2.key → v = w) (new : Tree) :
    new ∈ (fromVariables environment).filterMap (giving f.2.table f.2.name) ↔
      (f.2.inVariables? environment).map (guess f.2.key) = some new := by
  simp only [List.mem_filterMap, mem_fromVariables, Field.inVariables?, Option.map_eq_some_iff]
  constructor
  · rintro ⟨_, ⟨v, hv, key, hkey, rfl⟩, hgiven⟩
    rcases giving_eq_some hgiven with ⟨_, _, heq, -⟩ | heq
    · have htable : (guess key v.2).IsTable := (Prod.mk.inj heq).2 ▸ trivial
      exact absurd htable (not_isTable_guess key v.2)
    · obtain ⟨hpath, rfl⟩ := Prod.mk.inj heq
      obtain rfl : key = f.2.key := KeyPath.eq_of_ofKey_pair hpath
      cases hfound : environment.find? fun v => key? v.1 == some f.2.key with
      | none => exact absurd (beq_iff_eq.mpr hkey) (List.find?_eq_none.mp hfound v hv)
      | some w =>
        have hw : key? w.1 = some f.2.key := by simpa using List.find?_some hfound
        obtain rfl := honce v hv w (List.mem_of_find?_eq_some hfound) hkey hw
        exact ⟨v.2, ⟨v, rfl, rfl⟩, rfl⟩
  · rintro ⟨_, ⟨v, hfound, rfl⟩, rfl⟩
    have hkey : key? v.1 = some f.2.key := by simpa using List.find?_some hfound
    refine ⟨_, ⟨v, List.mem_of_find?_eq_some hfound, _, hkey, rfl⟩, ?_⟩
    rw [ofKey_key f hf, giving, if_pos ⟨rfl, rfl⟩]

end Sources

/-! ## 3. Loading -/

/-- The value of a field after all layers. -/
def Field.layered {α : Type} (f : Field α) (origin : String)
    (entries : List (String × Toml.Value)) (environment : List (String × String)) :
    Except LoadError α :=
  match f.inVariables? environment, f.inFile? entries with
  | some value, _ => f.decode f.key (guess f.key value)
  | none, some v => f.decode f.key (ofToml origin v)
  | none, none => .ok (f.get default)

/-- What the sources give for the field is of its kind, and neither gives it twice. -/
structure Field.WellGiven {α : Type} (f : Field α) (origin : String)
    (entries : List (String × Toml.Value)) (environment : List (String × String)) : Prop where
  of_file : ∀ e ∈ entries, f.Suits (KeyPath.ofKey e.1, ofToml origin e.2)
  of_environment : ∀ v ∈ environment, ∀ key, key? v.1 = some key →
    f.Suits (KeyPath.ofKey key, guess key v.2)
  file_once : ∀ es, entries.lookup f.table = some (.table es) →
    es.lookup f.name = none ∨ entries.lookup f.key = none
  environment_once : ∀ v ∈ environment, ∀ w ∈ environment,
    key? v.1 = some f.key → key? w.1 = some f.key → v = w

theorem getLast?_eq_of_mem_iff {β : Type} {l : List β} {o : Option β}
    (h : ∀ x, x ∈ l ↔ o = some x) : l.getLast? = o := by
  cases hlast : l.getLast? with
  | some x => exact ((h x).mp (List.mem_of_getLast? hlast)).symm
  | none =>
    cases o with
    | none => rfl
    | some x =>
      rw [List.getLast?_eq_none_iff] at hlast
      exact absurd ((h x).mpr rfl) (hlast ▸ List.not_mem_nil)

section Load

variable {f : Σ β : Type, Field β} {origin : String} {entries : List (String × Toml.Value)}
  {environment : List (String × String)}

/-- Every table of a file is set with its keys once. -/
theorem keysOnce_ofToml {v : Toml.Value} (h : v.Distinct) : KeysOnce (ofToml origin v) := by
  cases h with
  | table hnodup _ =>
    rw [ofToml, ofTomlEntries_eq, KeysOnce, List.map_map]
    exact hnodup
  | text | integer | decimal | boolean | moment | list =>
    rw [ofToml]
    trivial

theorem keysOnce_guess (key value : String) : KeysOnce (guess key value) := by
  cases hguess : guess key value with
  | table => exact absurd (hguess ▸ trivial) (not_isTable_guess key value)
  | unset | scalar _ _ | list _ _ => trivial

theorem distinct_of_holds {file : Option SourceFile} (h : Holds file entries) :
    (Toml.Value.table entries).Distinct := by
  cases file with
  | none =>
    obtain rfl : entries = [] := h
    exact .table List.nodup_nil nofun
  | some file => exact Toml.distinct_read h

/-- After all values were set, the tree stands for what the layers make of the field. -/
theorem read_layers (hf : f ∈ known) (hdistinct : (Toml.Value.table entries).Distinct)
    (h : f.2.WellGiven origin entries environment) :
    f.2.read (setAll (fromFile origin entries ++ fromVariables environment) .emptyTable) =
      f.2.layered origin entries environment := by
  obtain ⟨hkeys, hvalues⟩ := Toml.Value.distinct_table_iff.mp hdistinct
  have horderly : ∀ a ∈ fromFile origin entries ++ fromVariables environment,
      Orderly f.2.table f.2.name a := by
    intro a ha
    rcases List.mem_append.mp ha with ha | ha
    · obtain ⟨e, he, rfl⟩ := List.mem_map.mp ha
      exact (h.of_file e he).orderly hf (keysOnce_ofToml (hvalues e he))
    · obtain ⟨v, hv, key, hkey, rfl⟩ := mem_fromVariables.mp ha
      exact (h.of_environment v hv key hkey).orderly hf (keysOnce_guess key v.2)
  rw [Field.read_of_freeFor (Orderly.freeFor_setAll horderly (.inl rfl)),
    Orderly.grandchild?_setAll horderly, List.filterMap_append, List.getLast?_append,
    getLast?_eq_of_mem_iff (mem_given_file hf hkeys h.file_once),
    getLast?_eq_of_mem_iff (mem_given_variables hf h.environment_once), Field.layered]
  cases f.2.inVariables? environment with
  | some value => rfl
  | none => cases f.2.inFile? entries <;> rfl

/-- The layers make something of every field that is given well. -/
theorem exists_layered (hf : f ∈ known) (hkeys : (entries.map Prod.fst).Nodup)
    (h : f.2.WellGiven origin entries environment) :
    ∃ a, f.2.layered origin entries environment = .ok a := by
  rw [Field.layered]
  cases hvariable : f.2.inVariables? environment with
  | some value =>
    have hgiven := (mem_given_variables hf h.environment_once (guess f.2.key value)).mpr
      (by rw [hvariable]; rfl)
    obtain ⟨a, ha, hnew⟩ := List.mem_filterMap.mp hgiven
    obtain ⟨v, hv, key, hkey, rfl⟩ := mem_fromVariables.mp ha
    exact (h.of_environment v hv key hkey).takes hnew
  | none =>
    cases hfile : f.2.inFile? entries with
    | some v =>
      have hgiven := (mem_given_file hf hkeys h.file_once (ofToml origin v)).mpr
        (by rw [hfile]; rfl)
      obtain ⟨a, ha, hnew⟩ := List.mem_filterMap.mp hgiven
      obtain ⟨e, he, rfl⟩ := List.mem_map.mp ha
      exact (h.of_file e he).takes hnew
    | none => exact ⟨_, rfl⟩

end Load

/-- Settings are loaded field by field: from the variable of the field, else from the file, else
from the defaults. -/
theorem load_layers {file : Option SourceFile} {entries : List (String × Toml.Value)}
    {environment : List (String × String)} (hfile : Holds file entries)
    (h : ∀ f ∈ known, f.2.WellGiven (originOf file) entries environment) :
    (∃ s, load file environment = .ok s) ∧
    (∀ s, load file environment = .ok s ↔
      ∀ f ∈ known, f.2.layered (originOf file) entries environment = .ok (f.2.get s)) ∧
    load none [] = .ok default ∧
    ∀ f ∈ known, key? f.2.variableName = some f.2.key := by
  have hdistinct := distinct_of_holds hfile
  have hread : ∀ f ∈ known, f.2.read (setAll (fromFile (originOf file) entries ++
      fromVariables environment) .emptyTable) = f.2.layered (originOf file) entries environment :=
    fun f hf => read_layers hf hdistinct (h f hf)
  have hkeys := (Toml.Value.distinct_table_iff.mp hdistinct).1
  obtain ⟨s, hs⟩ := exists_decode fun f hf => hread f hf ▸ exists_layered hf hkeys (h f hf)
  refine ⟨⟨s, (load_iff_of_holds hfile).mpr hs⟩, fun s => ?_, load_default, key?_variable⟩
  rw [load_iff_of_holds hfile, decode_eq_ok_iff]
  exact forall₂_congr fun f hf => by rw [hread f hf]

theorem key?_home : key? "HOME" = none := by decide +kernel

theorem key?_workDir : key? "WORKER__GENERAL__WORK_DIR" = some Field.workDir.key := by
  decide +kernel

/-- A file that gives one field, and an environment that gives another. -/
theorem wellGiven_general : ∀ f ∈ known, f.2.WellGiven "worker.toml"
    [("general", .table [("log_dir", .text "y")])]
    [("HOME", "/root"), ("WORKER__GENERAL__WORK_DIR", "x")] := by
  have hworkDir : (⟨String, Field.workDir⟩ : Σ α : Type, Field α) ∈ known := by
    simp [known, generalFields]
  have hlogDir : (⟨String, Field.logDir⟩ : Σ α : Type, Field α) ∈ known := by
    simp [known, generalFields]
  have hgeneral : KeyPath.ofKey "general" = [.key "general"] :=
    ofKey_table ⟨String, Field.workDir⟩ hworkDir
  intro f hf
  constructor
  · refine List.forall_mem_singleton.mpr ?_
    rw [hgeneral, ofToml]
    refine Field.suits_table (fun g hg htable new hnew => ?_) f hf
    rw [lookup_ofTomlEntries] at hnew
    obtain ⟨v, hv, rfl⟩ := Option.map_eq_some_iff.mp hnew
    obtain ⟨hname, rfl⟩ := Prod.mk.inj (List.mem_singleton.mp (mem_of_lookup hv))
    obtain rfl := eq_of_names hg hlogDir htable hname
    exact ⟨"y", rfl⟩
  · refine List.forall_mem_cons.mpr ⟨?_, List.forall_mem_singleton.mpr ?_⟩
    · intro key hkey
      cases key?_home.symm.trans hkey
    · intro key hkey
      obtain rfl := Option.some.inj (key?_workDir.symm.trans hkey)
      rw [ofKey_key ⟨String, Field.workDir⟩ hworkDir]
      exact Field.suits_entry hworkDir ⟨"x", by decide +kernel⟩ f hf
  · intro _ _
    have hne : f.2.key ≠ "general" := by
      intro heq
      have hpath := ofKey_key f hf
      rw [heq, hgeneral] at hpath
      exact absurd (congrArg List.length hpath) (by simp)
    exact .inr (lookup_of_notMem (by simpa using hne))
  · have honly : ∀ v ∈ [("HOME", "/root"), ("WORKER__GENERAL__WORK_DIR", "x")],
        key? v.1 = some f.2.key → v = ("WORKER__GENERAL__WORK_DIR", "x") := by
      refine List.forall_mem_cons.mpr ⟨fun hkey => ?_, List.forall_mem_singleton.mpr fun _ => rfl⟩
      cases key?_home.symm.trans hkey
    intro v hv w hw hkey hkey'
    rw [honly v hv hkey, honly w hw hkey']

/-- A file and an environment that give two fields of one table. -/
theorem load_layers_general :
    let file : SourceFile := ⟨"worker.toml", "[general]\nlog_dir = \"y\"\n"⟩
    let environment := [("HOME", "/root"), ("WORKER__GENERAL__WORK_DIR", "x")]
    let entries : List (String × Toml.Value) := [("general", .table [("log_dir", .text "y")])]
    Holds (some file) entries ∧
    (∀ f ∈ known, f.2.WellGiven (originOf (some file)) entries environment) ∧
    ∃ s, load (some file) environment = .ok s ∧ s.general.workDir = "x" ∧ s.general.logDir = "y" ∧
      s.general.services = [] := by
  intro file environment entries
  have hfile : Holds (some file) entries := by cbv
  obtain ⟨⟨s, hs⟩, hload, -⟩ := load_layers hfile wellGiven_general
  have hfields := (hload s).mp hs
  simp only [known, List.forall_mem_append, generalFields, List.forall_mem_cons] at hfields
  obtain ⟨⟨hwork, hservices, hlog, -⟩, -⟩ := hfields
  have hwork' : Field.workDir.layered "worker.toml" entries environment = .ok "x" := by
    decide +kernel
  have hlog' : Field.logDir.layered "worker.toml" entries environment = .ok "y" := by
    decide +kernel
  have hservices' : Field.services.layered "worker.toml" entries environment = .ok [] := by
    decide +kernel
  exact ⟨hfile, wellGiven_general, s, hs, Except.ok.inj (hwork.symm.trans hwork'),
    Except.ok.inj (hlog.symm.trans hlog'), Except.ok.inj (hservices.symm.trans hservices')⟩

/-- A file and variables that the field names do not occur in change three fields. -/
theorem load_elsewhere :
    let file : SourceFile := ⟨"worker.toml", "\"general.log_dir\" = \"y\"\n"⟩
    let environment := [("WORKER__GENERAL.WORK_DIR", "x"), ("WORKER__GENERAL__SERVICES[0]", "A")]
    (∀ f ∈ known, ∀ v ∈ environment, v.1 ≠ f.2.variableName) ∧
    Holds (some file) [("general.log_dir", .text "y")] ∧
    load (some file) environment = .ok { default with
      general := { default.general with workDir := "x", services := ["A"], logDir := "y" } } := by
  intro file environment
  have hnames : ∀ f ∈ known, ∀ v ∈ environment, v.1 ≠ f.2.variableName := by
    have hmarks : ∀ v ∈ environment, '.' ∈ v.1.toList ∨ '[' ∈ v.1.toList := by
      simp [environment]
    intro f hf v hv heq
    rcases heq ▸ hmarks v hv with hdot | hbracket
    · exact absurd (isUpper_of_mem_variableName hf '.' hdot) (by decide)
    · exact absurd (isUpper_of_mem_variableName hf '[' hbracket) (by decide)
  have hfile : Holds (some file) [("general.log_dir", .text "y")] := by cbv
  have hdir : key? "WORKER__GENERAL.WORK_DIR" = some Field.workDir.key := by decide +kernel
  have hitem : key? "WORKER__GENERAL__SERVICES[0]" = some "general.services[0]" := by
    decide +kernel
  have hlog : KeyPath.ofKey "general.log_dir" = [.key "general", .key "log_dir"] :=
    ofKey_key ⟨String, Field.logDir⟩ (by simp [known, generalFields])
  have hpath : KeyPath.ofKey "general.services[0]" =
      [.key "general", .key "services", .index 0] := by
    obtain ⟨hgeneral, hservices⟩ := names_known ⟨_, Field.services⟩ (by simp [known, generalFields])
    have hkey : "general.services[0]".toList =
        Field.services.table.toList ++ '.' :: (Field.services.name.toList ++ ['[', '0', ']']) := by
      decide +kernel
    exact KeyPath.ofKey_of_steps hgeneral hservices hkey (by rintro c ⟨⟩; decide) (by cbv)
  refine ⟨hnames, hfile, (load_iff_of_holds hfile).mpr ?_⟩
  rw [fromVariables_cons hdir, fromVariables_cons hitem, hpath,
    ofKey_key ⟨String, Field.workDir⟩ (by simp [known, generalFields]), fromFile, List.map_cons,
    hlog]
  decide +kernel

end Settings

end SupervisedWorker
