import SupervisedWorker.CommandLine.Parse
import SupervisedWorker.CommandLine.Prepare
import SupervisedWorker.Proofs.Service.CleanNames
import SupervisedWorker.Proofs.Settings.Sources

/-!
# The identity of a supervised worker

The ids of a worker and its agent become parts of file names, so they should have something in them
and no blanks at their ends. Variables are trimmed, and blank ones count as missing. What the
command line gives is taken as it is, and a command line can give any two texts.

Results:
1. `fromEnvironment_bare`: ids from the environment are bare.
2. `paired_of_parse`, `parse_given`: the ids that a command line gives.
3. `usable_iff_given_bare`: when an identity is usable, and when command line and environment agree;
   `padded_ids_kept` are ids that they do not agree about.
-/

namespace SupervisedWorker

/-! ## 1. Ids from the environment -/

/-- An id that can be a part of a name: it is not empty and has no blanks at its ends. -/
structure IsBare (id : String) : Prop where
  nonempty : id ≠ ""
  unpadded : Text.trimmed id = id

instance (id : String) : Decidable (IsBare id) :=
  decidable_of_iff (id ≠ "" ∧ Text.trimmed id = id)
    ⟨fun h => ⟨h.1, h.2⟩, fun h => ⟨h.nonempty, h.unpadded⟩⟩

/-- Both ids are bare. -/
def AgentIdentity.IsUsable (i : AgentIdentity) : Prop := IsBare i.agentId ∧ IsBare i.serviceId

namespace Text

theorem trimmed_eq_self_iff (s : String) : trimmed s = s ↔
    (∀ c ∈ s.toList.head?, isBlank c = false) ∧ ∀ c ∈ s.toList.getLast?, isBlank c = false := by
  rw [trimmed, ← strip_eq_self_iff, ← trim, ← String.toList_inj, String.toList_ofList]

theorem trimmed_trimmed (s : String) : trimmed (trimmed s) = trimmed s := by
  rw [trimmed_eq_self_iff, trimmed, String.toList_ofList]
  obtain ⟨_, _, _, _, _, hhead⟩ := strip_split isBlank s.toList
  exact ⟨hhead, strip_last isBlank s.toList⟩

end Text

namespace Role

variable {lookup : String → Option String} {name id a s : String} {i : AgentIdentity}

theorem nonBlank_eq_some_iff : nonBlank lookup name = some id ↔
    ∃ value, lookup name = some value ∧ Text.trimmed value = id ∧ id ≠ "" := by
  simp only [nonBlank, Option.bind_eq_some_iff]
  refine exists_congr fun value => and_congr_right fun _ => ?_
  split
  · rename_i hempty
    exact ⟨nofun, fun ⟨hid, hne⟩ => absurd (hid.symm.trans hempty) hne⟩
  · rename_i hne
    exact ⟨fun h => ⟨Option.some.inj h, Option.some.inj h ▸ hne⟩, fun h => congrArg some h.1⟩

theorem nonBlank_bare (h : nonBlank lookup name = some id) : IsBare id := by
  obtain ⟨value, -, rfl, hne⟩ := nonBlank_eq_some_iff.mp h
  exact ⟨hne, Text.trimmed_trimmed value⟩

theorem fromEnvironment_eq_supervised_iff : fromEnvironment lookup = .ok (.supervised i) ↔
    nonBlank lookup "WORKER_AGENT_ID" = some i.agentId ∧
      nonBlank lookup "WORKER_SERVICE_ID" = some i.serviceId := by
  rw [fromEnvironment]
  cases nonBlank lookup "WORKER_AGENT_ID" with
  | none => exact ⟨nofun, fun h => nomatch h.1⟩
  | some agentId =>
    cases nonBlank lookup "WORKER_SERVICE_ID" with
    | none => exact ⟨nofun, fun h => nomatch h.2⟩
    | some serviceId =>
      constructor
      · rintro ⟨⟩
        exact ⟨rfl, rfl⟩
      · rintro ⟨⟨⟩, ⟨⟩⟩
        rfl

/-- An identity from the environment is usable. -/
theorem fromEnvironment_bare (h : fromEnvironment lookup = .ok (.supervised i)) : i.IsUsable := by
  obtain ⟨hagent, hservice⟩ := fromEnvironment_eq_supervised_iff.mp h
  exact ⟨nonBlank_bare hagent, nonBlank_bare hservice⟩

/-- Variables are taken as they are exactly if they are bare. -/
theorem fromEnvironment_eq_given_iff (hagent : lookup "WORKER_AGENT_ID" = some a)
    (hservice : lookup "WORKER_SERVICE_ID" = some s) :
    fromEnvironment lookup = .ok (.supervised ⟨a, s⟩) ↔ IsBare a ∧ IsBare s := by
  constructor
  · exact fun h => fromEnvironment_bare h
  · rintro ⟨ha, hs⟩
    exact fromEnvironment_eq_supervised_iff.mpr
      ⟨nonBlank_eq_some_iff.mpr ⟨a, hagent, ha.unpadded, ha.nonempty⟩,
        nonBlank_eq_some_iff.mpr ⟨s, hservice, hs.unpadded, hs.nonempty⟩⟩

end Role

namespace CommandLine

/-! ## 2. Ids from the command line -/

variable {words : List String} {o : RunOptions}

theorem paired_of_runRequest {d : Draft} (h : runRequest d = .ok (.run o)) :
    o.agentId.isSome = o.serviceId.isSome := by
  unfold runRequest at h
  dsimp only at h
  split at h
  · rename_i hpaired
    cases h
    exact hpaired
  · cases h

theorem helpRequest_ne_run (words : List String) : helpRequest words ≠ .ok (.run o) := by
  unfold helpRequest
  split
  · nofun
  · split <;> nofun

theorem programRequest_ne_run (word : String) (rest : List String) :
    programRequest word rest ≠ .ok (.run o) := by
  unfold programRequest
  split
  · split <;> nofun
  all_goals nofun

/-- A command line that is accepted gives both ids or none. -/
theorem paired_of_parse (h : parse words = .ok (.run o)) :
    o.agentId.isSome = o.serviceId.isSome := by
  unfold parse at h
  split at h
  · cases h
  · split at h
    · exact absurd h (helpRequest_ne_run _)
    · rename_i c _ _
      split at h
      · cases h
      · cases h
      · cases c with
        | run => exact paired_of_runRequest h
        | validate | version | help => cases h
    · exact absurd h (programRequest_ne_run _ _)

theorem splitValue_eq {name : List Char} (hname : '=' ∉ name) (value : String) :
    splitValue (name ++ '=' :: value.toList) = (String.ofList name, some value) := by
  have hspan : (name ++ '=' :: value.toList).span (· ≠ '=') = (name, '=' :: value.toList) := by
    rw [List.span_eq_takeWhile_dropWhile]
    have hall : ∀ c ∈ name, decide (c ≠ '=') = true := by
      intro c hc
      exact decide_eq_true fun heq => hname (heq ▸ hc)
    rw [List.takeWhile_append_of_pos hall, List.dropWhile_append_of_pos hall]
    simp
  rw [splitValue, hspan]
  simp only [String.ofList_toList]

theorem ofChars_given {word name : String}
    (hword : word.toList = '-' :: '-' :: name.toList ++ ['=']) (hname : '=' ∉ name.toList) (value : String) :
    Word.ofChars (word ++ value).toList = .long name (some value) := by
  have hsplit : (word ++ value).toList = '-' :: '-' :: (name.toList ++ '=' :: value.toList) := by
    rw [String.toList_append, hword]
    simp only [List.cons_append, List.append_assoc, List.nil_append]
  rw [hsplit, Word.ofChars, splitValue_eq hname, String.ofList_toList]
  simp

/-- Any two texts can be given as ids. -/
theorem parse_given (a s : String) :
    parse ["run", "--agent-id=" ++ a, "--service-id=" ++ s] =
      .ok (.run ⟨none, none, none, some a, some s⟩) := by
  have hagent : Word.ofChars ("--agent-id=" ++ a).toList = .long "agent-id" (some a) :=
    ofChars_given (by decide) (by decide) a
  have hservice : Word.ofChars ("--service-id=" ++ s).toList = .long "service-id" (some s) :=
    ofChars_given (by decide) (by decide) s
  have hfind : Subcommand.run.options.find? (·.name == "agent-id") = some .agentId ∧
      Subcommand.run.options.find? (·.name == "service-id") = some .serviceId := by decide
  have hfirst : Draft.empty.meet .agentId (some a) = .ok ⟨[(.agentId, a)], none⟩ := rfl
  have hsecond : Draft.meet ⟨[(.agentId, a)], none⟩ .serviceId (some s) =
      .ok ⟨[(.agentId, a), (.serviceId, s)], none⟩ := rfl
  rw [parse, Subcommand.ofWord?]
  simp only [readOptions, hagent, hservice, hfind, hfirst, hsecond]
  rfl

/-! ## 3. Usable identities -/

/-- What a run is prepared from. -/
theorem prepare_eq_ok_iff {file : Except Settings.LoadError (Option Settings.SourceFile)}
    {environment : List (String × String)} {settings : Settings} {role : Role} :
    prepare file environment o = .ok (settings, role) ↔ ∃ base,
      loadSettings file environment = .ok base ∧ o.role environment = .ok role ∧
        settings = o.override base := by
  rw [prepare]
  cases loadSettings file environment with
  | error e => exact ⟨nofun, nofun⟩
  | ok base =>
    cases o.role environment with
    | error e => exact ⟨nofun, nofun⟩
    | ok role' =>
      constructor
      · rintro ⟨⟩
        exact ⟨base, rfl, rfl, rfl⟩
      · rintro ⟨_, ⟨⟩, ⟨⟩, rfl⟩
        rfl

/-- An identity is usable exactly if the ids that the command line gives, if it gives any, are bare.
The command line and the environment make the same of two ids exactly if both are bare. -/
theorem usable_iff_given_bare (hwords : parse words = .ok (.run o)) :
    (∀ file environment settings i,
      prepare file environment o = .ok (settings, .supervised i) →
        (i.IsUsable ↔ ∀ id, o.agentId = some id ∨ o.serviceId = some id → IsBare id)) ∧
    ∀ environment environment' a s,
      environment.lookup "WORKER_AGENT_ID" = some a →
      environment.lookup "WORKER_SERVICE_ID" = some s →
      ({ o with agentId := some a, serviceId := some s }.role environment' =
          { o with agentId := none, serviceId := none }.role environment ↔
        IsBare a ∧ IsBare s) := by
  constructor
  · intro file environment settings i hprepare
    obtain ⟨-, -, hrole, -⟩ := prepare_eq_ok_iff.mp hprepare
    -- A single id would be passed over, so that both come from the environment.
    have hpaired := paired_of_parse hwords
    rcases hagent : o.agentId with _ | a <;> rcases hservice : o.serviceId with _ | s
    · rw [RunOptions.role, hagent] at hrole
      exact ⟨fun _ _ h => by rcases h with ⟨⟨⟩⟩ | ⟨⟨⟩⟩, fun _ => Role.fromEnvironment_bare hrole⟩
    · simp [hagent, hservice] at hpaired
    · simp [hagent, hservice] at hpaired
    · rw [RunOptions.role, hagent, hservice] at hrole
      obtain rfl : ⟨a, s⟩ = i := by simpa using hrole
      constructor
      · rintro ⟨ha, hs⟩ id (h | h)
        · exact Option.some.inj h ▸ ha
        · exact Option.some.inj h ▸ hs
      · exact fun h => ⟨h a (.inl rfl), h s (.inr rfl)⟩
  · intro environment environment' a s hagent hservice
    have hgiven : Role.fromEnvironment (fun name => environment.lookup name) =
        .ok (.supervised ⟨a, s⟩) ↔ IsBare a ∧ IsBare s :=
      Role.fromEnvironment_eq_given_iff hagent hservice
    exact eq_comm.trans hgiven

/-- Plain ids, on the command line and as variables. -/
theorem usable_iff_given_bare_plain :
    let o : RunOptions := ⟨none, none, none, some "7", some "gsa"⟩
    parse ["run", "--agent-id=7", "--service-id=gsa"] = .ok (.run o) ∧
    prepare (.ok none) [] o = .ok (default, .supervised ⟨"7", "gsa"⟩) ∧
    AgentIdentity.IsUsable ⟨"7", "gsa"⟩ ∧
    o.role [] = { o with agentId := none, serviceId := none }.role
      [("WORKER_AGENT_ID", "7"), ("WORKER_SERVICE_ID", "gsa")] := by
  intro o
  have hwords : parse ["run", "--agent-id=7", "--service-id=gsa"] = .ok (.run o) :=
    parse_given "7" "gsa"
  have hload : loadSettings (.ok none) [] = .ok default := Settings.load_default
  have hprepare : prepare (.ok none) [] o = .ok (default, .supervised ⟨"7", "gsa"⟩) := by
    rw [prepare, hload]
    rfl
  have hbare : IsBare "7" ∧ IsBare "gsa" := by decide +kernel
  obtain ⟨husable, hsources⟩ := usable_iff_given_bare hwords
  refine ⟨hwords, hprepare, (husable _ _ _ _ hprepare).mpr ?_,
    (hsources _ [] "7" "gsa" rfl rfl).mpr hbare⟩
  rintro id (h | h)
  · exact Option.some.inj h ▸ hbare.1
  · exact Option.some.inj h ▸ hbare.2

/-- Ids with blanks around them: the command line keeps the blanks and variables lose them. -/
theorem padded_ids_kept :
    let o : RunOptions := ⟨none, none, none, some " 7 ", some " s "⟩
    parse ["run", "--agent-id= 7 ", "--service-id= s "] = .ok (.run o) ∧
    prepare (.ok none) [] o = .ok (default, .supervised ⟨" 7 ", " s "⟩) ∧
    ¬AgentIdentity.IsUsable ⟨" 7 ", " s "⟩ ∧
    { o with agentId := none, serviceId := none }.role
      [("WORKER_AGENT_ID", " 7 "), ("WORKER_SERVICE_ID", " s ")] =
        .ok (.supervised ⟨"7", "s"⟩) := by
  intro o
  have hload : loadSettings (.ok none) [] = .ok default := Settings.load_default
  have hprepare : prepare (.ok none) [] o = .ok (default, .supervised ⟨" 7 ", " s "⟩) := by
    rw [prepare, hload]
    rfl
  have hpadded : ¬IsBare " 7 " := by decide +kernel
  exact ⟨parse_given " 7 " " s ", hprepare, fun h => hpadded h.1, by decide +kernel⟩

end CommandLine

end SupervisedWorker
