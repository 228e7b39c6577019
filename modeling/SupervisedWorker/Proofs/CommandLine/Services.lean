import SupervisedWorker.Proofs.CommandLine.Identity
import SupervisedWorker.Proofs.Service.CommaList
import SupervisedWorker.Proofs.Settings.TextVariables

/-!
# The services of a run, from an option or from a variable

The services of a run can be given as an option or as a variable, and nothing tells one who does so
that the two are read differently. The text of the option is parsed as a list of names. That of the
variable is split at its commas, and before that it is taken for a truth value or a number where it
can be one, which no list can be made of.

Results:
1. `decodeTexts_guess`: what the list of services is decoded from a variable's text.
2. `load_services`, `load_services_same`: settings that are loaded with the variable.
3. `services_agree_iff`: which texts the option and the variable agree about; `spaced_disagree` is
   one that they do not agree about.
-/

namespace SupervisedWorker

/-! ## 1. The list that a variable sets -/

namespace Settings

open Environment Settings.Tree

theorem guess_listKey (s : String) : guess listKey s =
    match reading? s with
    | some v => .scalar (some origin) v
    | none => .list (some origin)
        ((ServiceList.commaPieces s).map fun name => .scalar (some origin) (.text name)) := by
  rw [guess, reading?]
  by_cases htrue : Text.lower s = "true"
  · rw [if_pos htrue, if_pos htrue]
  by_cases hfalse : Text.lower s = "false"
  · rw [if_neg htrue, if_neg htrue, if_pos hfalse, if_pos hfalse]
  rw [if_neg htrue, if_neg htrue, if_neg hfalse, if_neg hfalse, if_pos rfl, ServiceList.commaPieces,
    List.map_map]
  cases integer? s.toList <;> cases Numeral.decimal s.toList <;> rfl

/-- A text that is taken for a truth value or a number is no list. -/
theorem decodeTexts_guess (key s : String) (names : List String) :
    decodeTexts key (guess listKey s) = .ok names ↔
      reading? s = none ∧ names = ServiceList.commaPieces s := by
  rw [guess_listKey]
  cases reading? s with
  | some v => exact ⟨nofun, nofun⟩
  | none =>
    show decodeItems key 0 _ = .ok names ↔ _
    rw [decodeItems_texts]
    simp [eq_comm]

/-! ## 2. Loading with the variable -/

/-- The settings with other services. -/
def withServices (s : Settings) (names : List String) : Settings :=
  { s with general := { s.general with services := names } }

theorem services_withServices (s : Settings) (names : List String) :
    (s.withServices names).general.services = names := rfl

theorem get_withServices (s : Settings) (names : List String) :
    ∀ f ∈ known, f ≠ ⟨_, Field.services⟩ → f.2.get (s.withServices names) = f.2.get s := by
  simp only [known, List.forall_mem_append, generalFields, monitorFields, watcherFields,
    shutdownFields, probeFields, List.forall_mem_cons, List.not_mem_nil, false_imp_iff,
    implies_true, and_true]
  refine ⟨⟨?_, fun hne => absurd rfl hne, ?_, ?_, ?_⟩, ⟨?_, ?_, ?_, ?_⟩, ⟨?_, ?_, ?_⟩,
    ⟨?_, ?_, ?_, ?_, ?_⟩, ?_⟩ <;> exact fun _ => rfl

/-- The services are one of the fields. -/
theorem services_known : (⟨_, Field.services⟩ : Σ α : Type, Field α) ∈ known := by
  simp [known, generalFields]

section Load

variable {name s : String} {before after : List (String × String)} {file : Option SourceFile}
  {settings settings' : Settings}

theorem given_services (hname : key? name = some listKey)
    (hafter : ∀ v ∈ after, ∀ key, key? v.1 = some key →
      Apart "general" "services" (KeyPath.ofKey key))
    (as : List Assignment) : Given "general" "services" (guess listKey s)
      (setAll (as ++ fromVariables (before ++ after)) .emptyTable)
      (setAll (as ++ fromVariables (before ++ (name, s) :: after)) .emptyTable) :=
  given_variable services_known hname hafter as

/-- The settings that are loaded with the variable have the pieces of its text as their services. -/
theorem load_services (hname : key? name = some listKey)
    (hafter : ∀ v ∈ after, ∀ key, key? v.1 = some key →
      Apart "general" "services" (KeyPath.ofKey key))
    (h : load file (before ++ (name, s) :: after) = .ok settings) :
    reading? s = none ∧ settings.general.services = ServiceList.commaPieces s := by
  obtain ⟨entries, -, hdecode⟩ := load_eq_ok_iff.mp h
  have hread := decode_eq_ok_iff.mp hdecode ⟨_, Field.services⟩ services_known
  rw [(given_services hname hafter _).read_own (f := ⟨_, Field.services⟩)] at hread
  exact (decodeTexts_guess _ s _).mp hread

theorem exists_load_services (hname : key? name = some listKey)
    (hafter : ∀ v ∈ after, ∀ key, key? v.1 = some key →
      Apart "general" "services" (KeyPath.ofKey key))
    (h : load file (before ++ after) = .ok settings) (hread : reading? s = none) :
    ∃ settings', load file (before ++ (name, s) :: after) = .ok settings' := by
  obtain ⟨entries, hentries, hdecode⟩ := load_eq_ok_iff.mp h
  have hnew : ∃ names, Field.services.decode Field.services.key (guess listKey s) = .ok names :=
    ⟨_, (decodeTexts_guess _ s _).mpr ⟨hread, rfl⟩⟩
  obtain ⟨settings', hdecode'⟩ := exists_decode
    ((given_services hname hafter _).exists_read services_known hnew
      fun g hg => ⟨_, decode_eq_ok_iff.mp hdecode g hg⟩)
  exact ⟨settings', load_eq_ok_iff.mpr ⟨entries, hentries, hdecode'⟩⟩

/-- The other settings are the same with and without the variable. -/
theorem load_services_same (hname : key? name = some listKey)
    (hafter : ∀ v ∈ after, ∀ key, key? v.1 = some key →
      Apart "general" "services" (KeyPath.ofKey key))
    (hfree : ∀ t, gather file (before ++ after) = .ok t → t.FreeFor "general")
    (h : load file (before ++ after) = .ok settings)
    (h' : load file (before ++ (name, s) :: after) = .ok settings') :
    settings' = settings.withServices (ServiceList.commaPieces s) := by
  have hservices := (load_services hname hafter h').2
  obtain ⟨entries, hentries, hdecode⟩ := load_eq_ok_iff.mp h
  have hdecode' := (load_iff_of_holds hentries).mp h'
  have hfree' := hfree _ (gather_eq_ok_iff.mpr ⟨entries, hentries, rfl⟩)
  refine ext_known fun f hf => ?_
  by_cases hne : f = ⟨_, Field.services⟩
  · subst hne
    exact hservices
  · have hnames : f.2.table = "general" → f.2.name ≠ "services" :=
      fun htable hfield => hne (eq_of_names hf services_known htable hfield)
    have hread := decode_eq_ok_iff.mp hdecode' f hf
    rw [(given_services hname hafter _).read_of_ne hnames hfree',
      decode_eq_ok_iff.mp hdecode f hf] at hread
    rw [get_withServices _ _ f hf hne]
    exact (Except.ok.inj hread).symm

end Load

end Settings

/-! ## 3. Option and variable -/

namespace CommandLine

open Settings Settings.Environment Settings.Tree

/-- The services of a run that could be prepared. -/
def services? (prepared : Except PrepareError (Settings × Role)) : Option (List String) :=
  prepared.toOption.map fun p => p.1.general.services

theorem services?_ok (settings : Settings) (role : Role) :
    services? (.ok (settings, role)) = some settings.general.services := rfl

section Routes

variable {file : Except LoadError (Option SourceFile)} {name s : String}
  {before after : List (String × String)} {o : RunOptions}

theorem role_with_variable (hname : key? name = some listKey) (o : RunOptions) :
    o.role (before ++ (name, s) :: after) = o.role (before ++ after) := by
  have hlookup : ∀ other, key? other = none →
      (before ++ (name, s) :: after).lookup other = (before ++ after).lookup other := by
    intro other hother
    have hne : other ≠ name := by
      rintro rfl
      cases hother.symm.trans hname
    rw [List.lookup_append, List.lookup_append, lookup_cons_ite, if_neg hne]
  have hagent := hlookup "WORKER_AGENT_ID" (by decide +kernel)
  have hservice := hlookup "WORKER_SERVICE_ID" (by decide +kernel)
  simp only [RunOptions.role, Role.fromEnvironment, Role.nonBlank, hagent, hservice]

theorem loadSettings_eq_ok_iff {environment : List (String × String)} {settings : Settings} :
    loadSettings file environment = .ok settings ↔
      ∃ source, file = .ok source ∧ load source environment = .ok settings := by
  cases file with
  | error e => exact ⟨nofun, nofun⟩
  | ok source => exact ⟨fun h => ⟨source, rfl, h⟩, fun ⟨_, hsource, h⟩ => Except.ok.inj hsource ▸ h⟩

theorem override_services (o : RunOptions) (s : String) (base : Settings) :
    { o with services := some s }.override base =
      { o with services := none }.override (base.withServices (ServiceList.parse s)) := by
  simp only [RunOptions.override, withServices, Option.map_some, Option.map_none,
    Option.getD_some, Option.getD_none]

theorem services_override (base : Settings) :
    ({ o with services := none }.override base).general.services = base.general.services := by
  simp only [RunOptions.override, Option.map_none, Option.getD_none]

/-- The option's text is parsed. -/
theorem services_option
    (hbase : ∃ settings role, prepare file (before ++ after) { o with services := none } =
      .ok (settings, role)) :
    services? (prepare file (before ++ after) { o with services := some s }) =
      some (ServiceList.parse s) := by
  obtain ⟨settings, role, hprepare⟩ := hbase
  obtain ⟨base, hload, hrole, -⟩ := prepare_eq_ok_iff.mp hprepare
  have hoption : prepare file (before ++ after) { o with services := some s } =
      .ok ({ o with services := some s }.override base, role) :=
    prepare_eq_ok_iff.mpr ⟨base, hload, hrole, rfl⟩
  rw [hoption, services?_ok, override_services, services_override, services_withServices]

/-- The variable's text is split, unless it is taken for something that is no list. -/
theorem services_variable (hname : key? name = some listKey)
    (hafter : ∀ v ∈ after, ∀ key, key? v.1 = some key →
      Apart "general" "services" (KeyPath.ofKey key))
    (hbase : ∃ settings role, prepare file (before ++ after) { o with services := none } =
      .ok (settings, role)) :
    services? (prepare file (before ++ (name, s) :: after) { o with services := none }) =
      if reading? s = none then some (ServiceList.commaPieces s) else none := by
  obtain ⟨settings, role, hprepare⟩ := hbase
  obtain ⟨base, hload, hrole, -⟩ := prepare_eq_ok_iff.mp hprepare
  obtain ⟨source, rfl, hsource⟩ := loadSettings_eq_ok_iff.mp hload
  split
  · rename_i hread
    obtain ⟨settings', hload'⟩ := exists_load_services hname hafter hsource hread
    have hvariable : prepare (.ok source) (before ++ (name, s) :: after)
        { o with services := none } =
          .ok ({ o with services := none }.override settings', role) :=
      prepare_eq_ok_iff.mpr ⟨settings', hload', (role_with_variable hname _).trans hrole, rfl⟩
    rw [hvariable, services?_ok, services_override, (load_services hname hafter hload').2]
  · -- What is no text is no list either, so nothing loads that has the variable.
    rename_i hread
    cases hvariable : prepare (.ok source) (before ++ (name, s) :: after)
        { o with services := none } with
    | error e => rfl
    | ok prepared =>
      obtain ⟨settings', hload', -⟩ := prepare_eq_ok_iff.mp hvariable
      exact absurd (load_services hname hafter hload').1 hread

/-- What the option and the variable both make of a plain list. -/
theorem prepare_same (hname : key? name = some listKey)
    (hafter : ∀ v ∈ after, ∀ key, key? v.1 = some key →
      Apart "general" "services" (KeyPath.ofKey key))
    (hbase : ∃ settings role, prepare file (before ++ after) { o with services := none } =
      .ok (settings, role))
    (hfree : ∀ source t, file = .ok source → gather source (before ++ after) = .ok t →
      t.FreeFor "general")
    (hread : reading? s = none) (hplain : ServiceList.IsPlainList s) :
    prepare file (before ++ after) { o with services := some s } =
      prepare file (before ++ (name, s) :: after) { o with services := none } := by
  obtain ⟨settings, role, hprepare⟩ := hbase
  obtain ⟨base, hload, hrole, -⟩ := prepare_eq_ok_iff.mp hprepare
  obtain ⟨source, rfl, hsource⟩ := loadSettings_eq_ok_iff.mp hload
  obtain ⟨settings', hload'⟩ := exists_load_services hname hafter hsource hread
  have hsame := load_services_same hname hafter (hfree source · rfl) hsource hload'
  have hoverride : { o with services := some s }.override base =
      { o with services := none }.override settings' := by
    rw [override_services, hsame, (ServiceList.parse_eq_commaPieces_iff s).mpr hplain]
  have hoption : prepare (.ok source) (before ++ after) { o with services := some s } =
      .ok ({ o with services := some s }.override base, role) :=
    prepare_eq_ok_iff.mpr ⟨base, hload, hrole, rfl⟩
  have hvariable : prepare (.ok source) (before ++ (name, s) :: after)
      { o with services := none } = .ok ({ o with services := none }.override settings', role) :=
    prepare_eq_ok_iff.mpr ⟨settings', hload', (role_with_variable hname _).trans hrole, rfl⟩
  rw [hoption, hvariable, hoverride]

/-- If a run can be prepared without either of them, the option and the variable give the same
services exactly if the text is taken for no truth value or number and is a plain list with commas:
the option's text is parsed, and the variable's is split. Then the whole results are the same,
unless the table of the services is given as something else. -/
theorem services_agree_iff (hname : key? name = some listKey)
    (hafter : ∀ v ∈ after, ∀ key, key? v.1 = some key →
      Apart "general" "services" (KeyPath.ofKey key))
    (hbase : ∃ settings role, prepare file (before ++ after) { o with services := none } =
      .ok (settings, role)) :
    services? (prepare file (before ++ after) { o with services := some s }) =
      some (ServiceList.parse s) ∧
    services? (prepare file (before ++ (name, s) :: after) { o with services := none }) =
      (if reading? s = none then some (ServiceList.commaPieces s) else none) ∧
    (services? (prepare file (before ++ after) { o with services := some s }) =
        services? (prepare file (before ++ (name, s) :: after) { o with services := none }) ↔
      reading? s = none ∧ ServiceList.IsPlainList s) ∧
    ((∀ source t, file = .ok source → gather source (before ++ after) = .ok t →
        t.FreeFor "general") →
      (prepare file (before ++ after) { o with services := some s } =
          prepare file (before ++ (name, s) :: after) { o with services := none } ↔
        reading? s = none ∧ ServiceList.IsPlainList s)) := by
  have hoption := services_option (s := s) hbase
  have hvariable := services_variable (s := s) hname hafter hbase
  have hagree : services? (prepare file (before ++ after) { o with services := some s }) =
      services? (prepare file (before ++ (name, s) :: after) { o with services := none }) ↔
        reading? s = none ∧ ServiceList.IsPlainList s := by
    rw [hoption, hvariable, ← ServiceList.parse_eq_commaPieces_iff]
    by_cases hread : reading? s = none
    · rw [if_pos hread, Option.some_inj, and_iff_right hread]
    · rw [if_neg hread]
      exact ⟨nofun, fun h => absurd h.1 hread⟩
  refine ⟨hoption, hvariable, hagree, fun hfree => ⟨fun h => hagree.mp (congrArg services? h), ?_⟩⟩
  exact fun h => prepare_same hname hafter hbase hfree h.1 h.2

end Routes

theorem key?_services : key? "WORKER__GENERAL__SERVICES" = some listKey := by decide +kernel

theorem prepare_default (o : RunOptions) (hrole : o.role [] = .ok .standalone) :
    prepare (.ok none) [] o = .ok (o.override Settings.default, .standalone) :=
  prepare_eq_ok_iff.mpr ⟨Settings.default, load_default, hrole, rfl⟩

/-- Two names with a comma between them. -/
theorem services_agree_iff_pair :
    let o : RunOptions := ⟨none, none, none, none, none⟩
    key? "WORKER__GENERAL__SERVICES" = some listKey ∧
    prepare (.ok none) [] { o with services := some "GSC,GSM" } =
      prepare (.ok none) [("WORKER__GENERAL__SERVICES", "GSC,GSM")] o ∧
    services? (prepare (.ok none) [] { o with services := some "GSC,GSM" }) =
      some ["GSC", "GSM"] := by
  intro o
  have hplain : ServiceList.IsPlainList "GSC,GSM" :=
    (ServiceList.parse_eq_commaPieces_iff _).mp (by decide +kernel)
  have hparse : ServiceList.parse "GSC,GSM" = ["GSC", "GSM"] := by decide +kernel
  have hfree : ∀ source t, (.ok none : Except LoadError (Option SourceFile)) = .ok source →
      gather source [] = .ok t → t.FreeFor "general" := by
    rintro source t ⟨⟩ ⟨⟩
    exact .inl rfl
  obtain ⟨hoption, -, -, hsame⟩ := @services_agree_iff (.ok none) _ "GSC,GSM" [] [] o
    key?_services nofun ⟨_, _, prepare_default o rfl⟩
  exact ⟨key?_services, (hsame hfree).mpr ⟨by decide +kernel, hplain⟩, hoption.trans
    (congrArg some hparse)⟩

/-- Two names with a space between them are two services as an option, and one as a variable. -/
theorem spaced_disagree :
    let o : RunOptions := ⟨none, none, none, none, none⟩
    key? "WORKER__GENERAL__SERVICES" = some listKey ∧
    services? (prepare (.ok none) [] { o with services := some "GSC GSM" }) =
      some ["GSC", "GSM"] ∧
    services? (prepare (.ok none) [("WORKER__GENERAL__SERVICES", "GSC GSM")] o) =
      some ["GSC GSM"] := by
  intro o
  have hbase : ∃ settings role, prepare (.ok none) [] o = .ok (settings, role) :=
    ⟨_, _, prepare_default o rfl⟩
  have hparse : ServiceList.parse "GSC GSM" = ["GSC", "GSM"] := by decide +kernel
  have hpieces : ServiceList.commaPieces "GSC GSM" = ["GSC GSM"] := by decide +kernel
  have hread : reading? "GSC GSM" = none := by decide +kernel
  have hoption := @services_option (.ok none) "GSC GSM" [] [] o hbase
  have hvariable := @services_variable (.ok none) _ "GSC GSM" [] [] o key?_services nofun hbase
  rw [if_pos hread] at hvariable
  exact ⟨key?_services, hoption.trans (congrArg some hparse),
    hvariable.trans (congrArg some hpieces)⟩

end CommandLine

end SupervisedWorker
