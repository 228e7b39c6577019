import SupervisedWorker.Proofs.Settings.Layers
import SupervisedWorker.Proofs.Toml.Rendered

/-!
# Settings loaded from their own rendering

What is written for settings gives every field a value that the field is decoded from. Texts and
lists come back whatever characters are in them. Numbers are words of 64 bits without a sign, and
the writer writes all of them; but a number in a file has a sign, so the reader refuses the larger
half. Such settings can still be loaded, from a file that has the numbers as texts.

Results:
1. `load_of_gives`: loading sections that give all fields.
2. `gives_sectionsWith`: the sections of settings give all fields, in whatever way their numbers are
   written.
3. `load_toToml`: loading what was written; `load_quoted`: loading the numbers as texts.
-/

namespace SupervisedWorker

namespace Settings

open Environment Settings.Tree

/-! ## 1. Sections that give all fields -/

/-- The section has an entry that the field's value in the settings is decoded from. -/
def InSection (t : Toml.Section) (s : Settings) (f : Σ α : Type, Field α) : Prop :=
  t.name = f.2.table ∧ ∃ w, t.entries.lookup f.2.name = some w ∧
    ∀ origin, f.2.decode f.2.key (ofToml origin w.value) = .ok (f.2.get s)

/-- The sections give all fields of the settings. -/
structure Gives (sections : List Toml.Section) (s : Settings) : Prop where
  proper : ∀ t ∈ sections, t.IsProper
  distinct : (sections.map Toml.Section.name).Nodup
  field : ∀ f ∈ known, ∃ t ∈ sections, InSection t s f

namespace Gives

variable {sections : List Toml.Section} {s : Settings} {f : Σ α : Type, Field α}

theorem keys_distinct (h : Gives sections s) :
    ((sections.map Toml.Section.value).map Prod.fst).Nodup := by
  rw [List.map_map]
  exact h.distinct

/-- The section of a field's name is the one that gives the field. -/
theorem inSection (h : Gives sections s) (hf : f ∈ known) {t : Toml.Section} (ht : t ∈ sections)
    (hname : t.name = f.2.table) : InSection t s f := by
  obtain ⟨t', ht', hin⟩ := h.field f hf
  obtain rfl := List.inj_on_of_nodup_map h.distinct ht ht' (hname.trans hin.1.symm)
  exact hin

theorem lookup_table (h : Gives sections s) {t : Toml.Section} (ht : t ∈ sections) :
    (sections.map Toml.Section.value).lookup t.name =
      some (.table (t.entries.map fun e => (e.1, e.2.value))) :=
  lookup_of_mem h.keys_distinct (List.mem_map_of_mem ht)

/-- No section has the name of a field with a dot in it. -/
theorem lookup_key (h : Gives sections s) (f : Σ α : Type, Field α) :
    (sections.map Toml.Section.value).lookup f.2.key = none := by
  refine lookup_of_notMem fun hmem => ?_
  rw [List.map_map] at hmem
  obtain ⟨t, ht, hname⟩ := List.mem_map.mp hmem
  -- The key has a dot between table and name, and the name of a section is bare.
  have hdot : '.' ∈ t.name.toList := by
    rw [show t.name = f.2.key from hname, Field.key]
    simp
  cases List.all_eq_true.mp (h.proper t ht).name.2 '.' hdot

theorem isWord (h : Gives sections s) {t : Toml.Section} (ht : t ∈ sections) :
    KeyPath.IsWord t.name :=
  ⟨(h.proper t ht).name.1, List.all_eq_true.mp (h.proper t ht).name.2⟩

theorem wellGiven (h : Gives sections s) (origin : String) (hf : f ∈ known) :
    f.2.WellGiven origin (sections.map Toml.Section.value) [] where
  of_file e he := by
    obtain ⟨t, ht, rfl⟩ := List.mem_map.mp he
    rw [Toml.Section.value, KeyPath.ofKey_word (h.isWord ht), ofToml]
    refine Field.suits_table (fun g hg htable new hnew => ?_) f hf
    obtain ⟨-, w, hw, hdecode⟩ := h.inSection hg ht htable.symm
    rw [lookup_ofTomlEntries, lookup_map, hw] at hnew
    obtain rfl := Option.some.inj hnew
    exact ⟨_, hdecode origin⟩
  of_environment := nofun
  file_once _ _ := .inr (h.lookup_key f)
  environment_once := nofun

theorem layered (h : Gives sections s) (origin : String) (hf : f ∈ known) :
    f.2.layered origin (sections.map Toml.Section.value) [] = .ok (f.2.get s) := by
  obtain ⟨t, ht, hname, w, hw, hdecode⟩ := h.field f hf
  have hfile : f.2.inFile? (sections.map Toml.Section.value) = some w.value := by
    rw [Field.inFile?, ← hname, h.lookup_table ht]
    dsimp only
    rw [lookup_map, hw]
    rfl
  rw [Field.layered, hfile]
  exact hdecode origin

end Gives

/-- A file with sections that give all fields is loaded as the settings, unless a number is too
large. -/
theorem load_of_gives {sections : List Toml.Section} {s : Settings} (h : Gives sections s)
    (name : String) : load (some ⟨name, String.ofList (Toml.write sections)⟩) [] =
      if ∀ t ∈ sections, t.IsReadable then .ok s else .error .notToml := by
  have hread := Toml.read_write h.proper h.distinct
  split
  · rename_i hreadable
    rw [if_pos hreadable] at hread
    have hholds : Holds (some ⟨name, String.ofList (Toml.write sections)⟩)
        (sections.map Toml.Section.value) := by
      rw [Holds, String.toList_ofList, hread]
    rw [load_iff_of_holds hholds, decode_eq_ok_iff]
    intro f hf
    rw [read_layers hf (distinct_of_holds hholds) (h.wellGiven _ hf)]
    exact h.layered _ hf
  · rename_i hreadable
    rw [if_neg hreadable] at hread
    have happly : SourceFile.apply ⟨name, String.ofList (Toml.write sections)⟩ .emptyTable =
        .error .notToml := by
      rw [SourceFile.apply, String.toList_ofList, hread]
    rw [load, gather, happly]
    rfl

/-! ## 2. The sections of settings -/

/-- The numbers that may need all 64 bits. -/
def numbers (s : Settings) : List UInt64 :=
  [s.general.logRetentionDays, s.monitor.periodMs, s.monitor.pauseWarningMs,
    s.watcher.pollIntervalMs, s.watcher.deleteBackoffMs, s.shutdown.hookTimeoutMs,
    s.shutdown.exitLingerMs, s.shutdown.signalLingerMs, s.shutdown.orphanGraceMs]

/-- All numbers fit 64 bits with a sign. -/
def FitsToml (s : Settings) : Prop := ∀ n ∈ s.numbers, n.toNat < 2 ^ 63

instance (s : Settings) : Decidable s.FitsToml :=
  inferInstanceAs (Decidable (∀ n ∈ s.numbers, n.toNat < 2 ^ 63))

/-- A value with its number, if it is one, written in another way. -/
def renumbered (number : Nat → Toml.Written) : Toml.Written → Toml.Written
  | .number n => number n
  | w => w

/-- The sections of settings with their numbers written in another way. -/
def sectionsWith (number : Nat → Toml.Written) (s : Settings) : List Toml.Section :=
  s.sections.map fun t => ⟨t.name, t.entries.map fun e => (e.1, renumbered number e.2)⟩

theorem sectionsWith_number (s : Settings) : s.sectionsWith .number = s.sections := rfl

theorem decodeUInt64_of_number {key : String} {t : Tree} {n : UInt64}
    (h : decodeNumber key t = .ok n.toNat) : decodeUInt64 key t = .ok n := by
  rw [decodeUInt64, h, Except.map, UInt64.ofNat_toNat]

theorem decodeUInt32_of_number {key : String} {t : Tree} {n : UInt32}
    (h : decodeNumber key t = .ok n.toNat) : decodeUInt32 key t = .ok n := by
  rw [decodeUInt32, h]
  exact (if_pos n.toNat_lt_size).trans (congrArg Except.ok UInt32.ofNat_toNat)

theorem ofTomlItems_texts (origin : String) (items : List String) :
    ofTomlItems origin (items.map .text) = items.map fun s => .scalar (some origin) (.text s) := by
  induction items with
  | nil => rfl
  | cons s items ih => rw [List.map_cons, ofTomlItems, ih]; rfl

section SectionsWith

variable {number : Nat → Toml.Written}

/-- The names of the sections and their keys are the same for all settings. -/
def layout : List (String × List String) :=
  default.sections.map fun t => (t.name, t.entries.map Prod.fst)

theorem layout_sectionsWith (s : Settings) :
    (s.sectionsWith number).map (fun t => (t.name, t.entries.map Prod.fst)) = layout := rfl

theorem layout_proper : (layout.map Prod.fst).Nodup ∧
    ∀ x ∈ layout, Toml.IsBareKey x.1 ∧ (∀ key ∈ x.2, Toml.IsBareKey key) ∧ x.2.Nodup := by
  decide +kernel

theorem proper_sectionsWith (s : Settings) : ∀ t ∈ s.sectionsWith number, t.IsProper := by
  intro t ht
  have hmem := List.mem_map_of_mem (f := fun t => (t.name, t.entries.map Prod.fst)) ht
  rw [layout_sectionsWith] at hmem
  obtain ⟨hname, hkeys, hdistinct⟩ := layout_proper.2 _ hmem
  exact ⟨hname, fun e he => hkeys _ (List.mem_map_of_mem he), hdistinct⟩

theorem gives_sectionsWith
    (hnumber : ∀ key origin n, n < UInt64.size →
      decodeNumber key (ofToml origin (number n).value) = .ok n) (s : Settings) :
    Gives (s.sectionsWith number) s where
  proper := proper_sectionsWith s
  distinct := layout_proper.1
  field := by
    have hword : ∀ (key origin : String) (n : UInt64),
        decodeUInt64 key (ofToml origin (number n.toNat).value) = .ok n :=
      fun key origin n => decodeUInt64_of_number (hnumber key origin _ n.toNat_lt_size)
    have hhalf : ∀ (key origin : String) (n : UInt32),
        decodeUInt32 key (ofToml origin (number n.toNat).value) = .ok n :=
      fun key origin n => decodeUInt32_of_number
        (hnumber key origin _ (Nat.lt_trans n.toNat_lt_size (by decide)))
    have htexts : ∀ (key origin : String) (items : List String),
        decodeTexts key (ofToml origin (.list (items.map .text))) = .ok items := by
      intro key origin items
      rw [ofToml, decodeTexts, ofTomlItems_texts, decodeItems_texts]
    have hsection : ∀ {fields : FieldList} {t : Toml.Section}, t ∈ s.sectionsWith number →
        (∀ f ∈ fields, InSection t s f) →
        ∀ f ∈ fields, ∃ t ∈ s.sectionsWith number, InSection t s f :=
      fun ht h f hf => ⟨_, ht, h f hf⟩
    -- What stands under each key does not depend on the values, so `rfl` finds the entries.
    simp only [known, List.forall_mem_append]
    refine ⟨?general, ?monitor, ?watcher, ?shutdown, ?probe⟩
    case general =>
      refine hsection (.head _) ?_
      simp only [generalFields, List.forall_mem_cons]
      exact ⟨⟨rfl, _, rfl, fun _ => rfl⟩, ⟨rfl, _, rfl, fun _ => htexts _ _ _⟩,
        ⟨rfl, _, rfl, fun _ => rfl⟩, ⟨rfl, _, rfl, fun _ => hword _ _ _⟩,
        ⟨rfl, _, rfl, fun _ => rfl⟩, List.forall_mem_nil _⟩
    case monitor =>
      refine hsection (.tail _ (.head _)) ?_
      simp only [monitorFields, List.forall_mem_cons]
      exact ⟨⟨rfl, _, rfl, fun _ => hword _ _ _⟩, ⟨rfl, _, rfl, fun _ => hword _ _ _⟩,
        ⟨rfl, _, rfl, fun _ => rfl⟩, ⟨rfl, _, rfl, fun _ => hhalf _ _ _⟩, List.forall_mem_nil _⟩
    case watcher =>
      refine hsection (.tail _ (.tail _ (.head _))) ?_
      simp only [watcherFields, List.forall_mem_cons]
      exact ⟨⟨rfl, _, rfl, fun _ => hword _ _ _⟩, ⟨rfl, _, rfl, fun _ => hhalf _ _ _⟩,
        ⟨rfl, _, rfl, fun _ => hword _ _ _⟩, List.forall_mem_nil _⟩
    case shutdown =>
      refine hsection (.tail _ (.tail _ (.tail _ (.head _)))) ?_
      simp only [shutdownFields, List.forall_mem_cons]
      exact ⟨⟨rfl, _, rfl, fun _ => hword _ _ _⟩, ⟨rfl, _, rfl, fun _ => rfl⟩,
        ⟨rfl, _, rfl, fun _ => hword _ _ _⟩, ⟨rfl, _, rfl, fun _ => hword _ _ _⟩,
        ⟨rfl, _, rfl, fun _ => hword _ _ _⟩, List.forall_mem_nil _⟩
    case probe =>
      refine hsection (.tail _ (.tail _ (.tail _ (.tail _ (.head _))))) ?_
      simp only [probeFields, List.forall_mem_cons]
      exact ⟨⟨rfl, _, rfl, fun _ => rfl⟩, List.forall_mem_nil _⟩

end SectionsWith

/-! ## 3. What was written -/

theorem gives_sections (s : Settings) : Gives s.sections s := by
  have hnumber : ∀ key origin n, n < UInt64.size →
      decodeNumber key (ofToml origin (Toml.Written.number n).value) = .ok n := by
    intro key origin n _
    rw [Toml.Written.value, ofToml, decodeNumber, if_neg (by omega), Int.toNat_natCast]
  rw [← sectionsWith_number]
  exact gives_sectionsWith hnumber s

/-- A number as a text. -/
def quoted (n : Nat) : Toml.Written := .text (toString n)

theorem textNumber_toString {n : Nat} (h : n < UInt64.size) : textNumber (toString n) = some n := by
  have hdigits : (toString n).toList = Nat.toDigits 10 n := Nat.toList_repr
  have hlower : Text.lower (toString n) = toString n := Numeral.lower_toString n
  have hletters : ∀ words : List String,
      words.all (fun word => !word.toList.all Char.isDigit) = true →
        ¬words.contains (toString n) = true := by
    intro words hwords hmem
    have hletter := List.all_eq_true.mp hwords _ (List.contains_iff_mem.mp hmem)
    rw [hdigits, List.all_eq_true.mpr (Numeral.all_isDigit_toDigits n)] at hletter
    cases hletter
  have hword : truthWord (toString n) = none := by
    rw [truthWord, if_neg (hletters _ (by decide)), if_neg (hletters _ (by decide))]
  rw [textNumber, hlower, hword, hdigits, Numeral.unsigned_toDigits, Option.bind_some, if_pos h]

theorem gives_quoted (s : Settings) : Gives (s.sectionsWith quoted) s := by
  refine gives_sectionsWith (fun key origin n h => ?_) s
  rw [quoted, Toml.Written.value, ofToml, decodeNumber, textNumber_toString h]

theorem isReadable_quoted (s : Settings) : ∀ t ∈ s.sectionsWith quoted, t.IsReadable := by
  have hreadable : ∀ w, (renumbered quoted w).IsReadable := by
    intro w
    cases w <;> trivial
  intro t ht
  obtain ⟨t, -, rfl⟩ := List.mem_map.mp ht
  intro e he
  obtain ⟨e, -, rfl⟩ := List.mem_map.mp he
  exact hreadable e.2

theorem isReadable_sections (s : Settings) : (∀ t ∈ s.sections, t.IsReadable) ↔ s.FitsToml := by
  have hhalf : ∀ n : UInt32, n.toNat < 2 ^ 63 :=
    fun n => Nat.lt_trans n.toNat_lt_size (by decide)
  simp only [sections, Toml.Section.IsReadable, FitsToml, numbers, List.forall_mem_cons,
    Toml.Written.IsReadable, hhalf, true_and, and_true, and_assoc, List.not_mem_nil,
    false_imp_iff, implies_true]

/-- Settings are loaded back from what is written for them exactly if their numbers fit 64 bits with
a sign. -/
theorem load_toToml (s : Settings) (name : String) :
    load (some ⟨name, s.toToml⟩) [] = if s.FitsToml then .ok s else .error .notToml := by
  rw [toToml, load_of_gives (gives_sections s)]
  exact if_congr (isReadable_sections s) rfl rfl

/-- All settings are loaded from some file. -/
theorem load_quoted (s : Settings) (name : String) :
    load (some ⟨name, String.ofList (Toml.write (s.sectionsWith quoted))⟩) [] = .ok s := by
  rw [load_of_gives (gives_quoted s), if_pos (isReadable_quoted s)]

end Settings

end SupervisedWorker
