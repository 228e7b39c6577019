import Mathlib.Data.List.Nodup
import SupervisedWorker.Proofs.Settings.Tree
import SupervisedWorker.Settings.Load

/-!
# The fields of the settings

The settings are a row of fields, each an entry of one of five tables. Every field is decoded by
itself: settings are what a tree stands for exactly if each of their fields is what the field's own
entry stands for.

Results:
1. `known`: all fields; `ext_known`: settings are determined by them.
2. `decode_eq_ok_iff`: decoding a tree is decoding every field.
3. `read_of_freeFor`: a field is decoded from its entry, and without an entry keeps its default.
-/

namespace SupervisedWorker

namespace Settings

/-! ## 1. All fields -/

/-- A field of the settings: the table it is an entry of, what messages call that table, its name
and its place among the fields of the table, and how it is decoded. -/
structure Field (α : Type) where
  table : String
  record : String
  name : String
  place : Nat
  decode : String → Tree → Except LoadError α
  get : Settings → α

namespace Field

variable {α : Type}

def ofGeneral (name : String) (place : Nat) (decode : String → Tree → Except LoadError α)
    (get : GeneralSettings → α) : Field α :=
  ⟨"general", "GeneralConfig", name, place, decode, fun s => get s.general⟩

def ofMonitor (name : String) (place : Nat) (decode : String → Tree → Except LoadError α)
    (get : MonitorSettings → α) : Field α :=
  ⟨"monitor", "MonitorConfig", name, place, decode, fun s => get s.monitor⟩

def ofWatcher (name : String) (place : Nat) (decode : String → Tree → Except LoadError α)
    (get : WatcherSettings → α) : Field α :=
  ⟨"watcher", "WatcherConfig", name, place, decode, fun s => get s.watcher⟩

def ofShutdown (name : String) (place : Nat) (decode : String → Tree → Except LoadError α)
    (get : ShutdownSettings → α) : Field α :=
  ⟨"shutdown", "ShutdownConfig", name, place, decode, fun s => get s.shutdown⟩

def workDir : Field String := ofGeneral "work_dir" 0 decodeText (·.workDir)

def services : Field (List String) := ofGeneral "services" 1 decodeTexts (·.services)

def logDir : Field String := ofGeneral "log_dir" 2 decodeText (·.logDir)

def completionToken : Field String := ofShutdown "completion_token" 1 decodeText (·.completionToken)

def probePrefix : Field String :=
  ⟨"probe", "ProbeConfig", "prefix", 0, decodeText, fun s => s.probe.probePrefix⟩

/-- The name of the field from the top of the tree. -/
def key (f : Field α) : String := f.table ++ "." ++ f.name

/-- What a tree says about the field. -/
def read (f : Field α) (t : Tree) : Except LoadError α := do
  (← findSection f.table f.record t).read f.name f.place f.decode (f.get default)

end Field

section Tables

open Settings.Field

/-- Fields with values of any types. -/
abbrev FieldList := List (Σ α : Type, Field α)

def generalFields : FieldList :=
  [⟨_, workDir⟩, ⟨_, services⟩, ⟨_, logDir⟩,
    ⟨_, ofGeneral "log_retention_days" 3 decodeUInt64 (·.logRetentionDays)⟩,
    ⟨_, ofGeneral "tokio_console" 4 decodeBool (·.tokioConsole)⟩]

def monitorFields : FieldList :=
  [⟨_, ofMonitor "period_ms" 0 decodeUInt64 (·.periodMs)⟩,
    ⟨_, ofMonitor "pause_warning_ms" 1 decodeUInt64 (·.pauseWarningMs)⟩,
    ⟨_, ofMonitor "housekeeping_enabled" 2 decodeBool (·.housekeepingEnabled)⟩,
    ⟨_, ofMonitor "housekeeping_max_failures" 3 decodeUInt32 (·.housekeepingMaxFailures)⟩]

def watcherFields : FieldList :=
  [⟨_, ofWatcher "poll_interval_ms" 0 decodeUInt64 (·.pollIntervalMs)⟩,
    ⟨_, ofWatcher "delete_attempts" 1 decodeUInt32 (·.deleteAttempts)⟩,
    ⟨_, ofWatcher "delete_backoff_ms" 2 decodeUInt64 (·.deleteBackoffMs)⟩]

def shutdownFields : FieldList :=
  [⟨_, ofShutdown "hook_timeout_ms" 0 decodeUInt64 (·.hookTimeoutMs)⟩, ⟨_, completionToken⟩,
    ⟨_, ofShutdown "exit_linger_ms" 2 decodeUInt64 (·.exitLingerMs)⟩,
    ⟨_, ofShutdown "signal_linger_ms" 3 decodeUInt64 (·.signalLingerMs)⟩,
    ⟨_, ofShutdown "orphan_grace_ms" 4 decodeUInt64 (·.orphanGraceMs)⟩]

def probeFields : FieldList := [⟨_, probePrefix⟩]

/-- All fields. -/
def known : FieldList :=
  generalFields ++ (monitorFields ++ (watcherFields ++ (shutdownFields ++ probeFields)))

end Tables

/-- Settings whose fields are the same are the same. -/
theorem ext_known {a b : Settings} (h : ∀ f ∈ known, f.2.get a = f.2.get b) : a = b := by
  obtain ⟨⟨_, _, _, _, _⟩, ⟨_, _, _, _⟩, ⟨_, _, _⟩, ⟨_, _, _, _, _⟩, ⟨_⟩⟩ := a
  obtain ⟨⟨_, _, _, _, _⟩, ⟨_, _, _, _⟩, ⟨_, _, _⟩, ⟨_, _, _, _, _⟩, ⟨_⟩⟩ := b
  simp only [known, List.forall_mem_append, generalFields, monitorFields, watcherFields,
    shutdownFields, probeFields, List.forall_mem_cons] at h
  obtain ⟨⟨rfl, rfl, rfl, rfl, rfl, -⟩, ⟨rfl, rfl, rfl, rfl, -⟩, ⟨rfl, rfl, rfl, -⟩,
    ⟨rfl, rfl, rfl, rfl, rfl, -⟩, ⟨rfl, -⟩⟩ := h
  rfl

/-- No two fields have table and name in common. -/
theorem eq_of_names {f g : Σ α : Type, Field α} (hf : f ∈ known) (hg : g ∈ known)
    (htable : f.2.table = g.2.table) (hname : f.2.name = g.2.name) : f = g := by
  have hdistinct : (known.map fun f => (f.2.table, f.2.name)).Nodup := by decide +kernel
  exact List.inj_on_of_nodup_map hdistinct hf hg (Prod.ext htable hname)

/-! ## 2. Decoding field by field -/

theorem bind_eq_ok {ε α β : Type} {x : Except ε α} {f : α → Except ε β} {b : β} :
    (x >>= f) = .ok b ↔ ∃ a, x = .ok a ∧ f a = .ok b := by
  cases x with
  | error e => exact ⟨nofun, nofun⟩
  | ok a => exact ⟨fun h => ⟨a, rfl, h⟩, fun ⟨_, ha, h⟩ => Except.ok.inj ha ▸ h⟩

section Decode

variable {t : Tree} {s : Settings}

theorem decodeGeneral_eq_ok_iff :
    decodeGeneral t = .ok s.general ↔ ∀ f ∈ generalFields, f.2.read t = .ok (f.2.get s) := by
  simp only [decodeGeneral, generalFields, List.forall_mem_cons, Field.read, Field.workDir,
    Field.services, Field.logDir, Field.ofGeneral]
  cases findSection "general" "GeneralConfig" t with
  | error e => exact ⟨nofun, fun h => nomatch h.1⟩
  | ok source =>
    simp only [bind_eq_ok]
    constructor
    · rintro ⟨_, ⟨⟩, a, ha, b, hb, c, hc, d, hd, e, he, h⟩
      rw [← Except.ok.inj h]
      exact ⟨⟨_, rfl, ha⟩, ⟨_, rfl, hb⟩, ⟨_, rfl, hc⟩, ⟨_, rfl, hd⟩, ⟨_, rfl, he⟩, nofun⟩
    · rintro ⟨⟨_, ⟨⟩, ha⟩, ⟨_, ⟨⟩, hb⟩, ⟨_, ⟨⟩, hc⟩, ⟨_, ⟨⟩, hd⟩, ⟨_, ⟨⟩, he⟩, -⟩
      exact ⟨_, rfl, _, ha, _, hb, _, hc, _, hd, _, he, rfl⟩

theorem decodeMonitor_eq_ok_iff :
    decodeMonitor t = .ok s.monitor ↔ ∀ f ∈ monitorFields, f.2.read t = .ok (f.2.get s) := by
  simp only [decodeMonitor, monitorFields, List.forall_mem_cons, Field.read,
    Field.ofMonitor]
  cases findSection "monitor" "MonitorConfig" t with
  | error e => exact ⟨nofun, fun h => nomatch h.1⟩
  | ok source =>
    simp only [bind_eq_ok]
    constructor
    · rintro ⟨_, ⟨⟩, a, ha, b, hb, c, hc, d, hd, h⟩
      rw [← Except.ok.inj h]
      exact ⟨⟨_, rfl, ha⟩, ⟨_, rfl, hb⟩, ⟨_, rfl, hc⟩, ⟨_, rfl, hd⟩, nofun⟩
    · rintro ⟨⟨_, ⟨⟩, ha⟩, ⟨_, ⟨⟩, hb⟩, ⟨_, ⟨⟩, hc⟩, ⟨_, ⟨⟩, hd⟩, -⟩
      exact ⟨_, rfl, _, ha, _, hb, _, hc, _, hd, rfl⟩

theorem decodeWatcher_eq_ok_iff :
    decodeWatcher t = .ok s.watcher ↔ ∀ f ∈ watcherFields, f.2.read t = .ok (f.2.get s) := by
  simp only [decodeWatcher, watcherFields, List.forall_mem_cons, Field.read,
    Field.ofWatcher]
  cases findSection "watcher" "WatcherConfig" t with
  | error e => exact ⟨nofun, fun h => nomatch h.1⟩
  | ok source =>
    simp only [bind_eq_ok]
    constructor
    · rintro ⟨_, ⟨⟩, a, ha, b, hb, c, hc, h⟩
      rw [← Except.ok.inj h]
      exact ⟨⟨_, rfl, ha⟩, ⟨_, rfl, hb⟩, ⟨_, rfl, hc⟩, nofun⟩
    · rintro ⟨⟨_, ⟨⟩, ha⟩, ⟨_, ⟨⟩, hb⟩, ⟨_, ⟨⟩, hc⟩, -⟩
      exact ⟨_, rfl, _, ha, _, hb, _, hc, rfl⟩

theorem decodeShutdown_eq_ok_iff :
    decodeShutdown t = .ok s.shutdown ↔ ∀ f ∈ shutdownFields, f.2.read t = .ok (f.2.get s) := by
  simp only [decodeShutdown, shutdownFields, List.forall_mem_cons, Field.read,
    Field.completionToken, Field.ofShutdown]
  cases findSection "shutdown" "ShutdownConfig" t with
  | error e => exact ⟨nofun, fun h => nomatch h.1⟩
  | ok source =>
    simp only [bind_eq_ok]
    constructor
    · rintro ⟨_, ⟨⟩, a, ha, b, hb, c, hc, d, hd, e, he, h⟩
      rw [← Except.ok.inj h]
      exact ⟨⟨_, rfl, ha⟩, ⟨_, rfl, hb⟩, ⟨_, rfl, hc⟩, ⟨_, rfl, hd⟩, ⟨_, rfl, he⟩, nofun⟩
    · rintro ⟨⟨_, ⟨⟩, ha⟩, ⟨_, ⟨⟩, hb⟩, ⟨_, ⟨⟩, hc⟩, ⟨_, ⟨⟩, hd⟩, ⟨_, ⟨⟩, he⟩, -⟩
      exact ⟨_, rfl, _, ha, _, hb, _, hc, _, hd, _, he, rfl⟩

theorem decodeProbe_eq_ok_iff :
    decodeProbe t = .ok s.probe ↔ ∀ f ∈ probeFields, f.2.read t = .ok (f.2.get s) := by
  simp only [decodeProbe, probeFields, List.forall_mem_cons, Field.read, Field.probePrefix]
  cases findSection "probe" "ProbeConfig" t with
  | error e => exact ⟨nofun, fun h => nomatch h.1⟩
  | ok source =>
    simp only [bind_eq_ok]
    constructor
    · rintro ⟨_, ⟨⟩, a, ha, h⟩
      rw [← Except.ok.inj h]
      exact ⟨⟨_, rfl, ha⟩, nofun⟩
    · rintro ⟨⟨_, ⟨⟩, ha⟩, -⟩
      exact ⟨_, rfl, _, ha, rfl⟩

/-- A tree is decoded into settings exactly if each field is decoded into what they have there. -/
theorem decode_eq_ok_iff :
    Settings.decode t = .ok s ↔ ∀ f ∈ known, f.2.read t = .ok (f.2.get s) := by
  simp only [known, List.forall_mem_append, ← decodeGeneral_eq_ok_iff, ← decodeMonitor_eq_ok_iff,
    ← decodeWatcher_eq_ok_iff, ← decodeShutdown_eq_ok_iff, ← decodeProbe_eq_ok_iff,
    Settings.decode, bind_eq_ok]
  constructor
  · rintro ⟨a, ha, b, hb, c, hc, d, hd, e, he, h⟩
    rw [← Except.ok.inj h]
    exact ⟨ha, hb, hc, hd, he⟩
  · rintro ⟨ha, hb, hc, hd, he⟩
    exact ⟨_, ha, _, hb, _, hc, _, hd, _, he, rfl⟩

/-- Where every field is decoded, there are settings that are made of them. -/
theorem exists_decode (h : ∀ f ∈ known, ∃ a, f.2.read t = .ok a) :
    ∃ s, Settings.decode t = .ok s := by
  simp only [decode_eq_ok_iff]
  simp only [known, List.forall_mem_append, generalFields, monitorFields, watcherFields,
    shutdownFields, probeFields, List.forall_mem_cons] at h ⊢
  obtain ⟨⟨⟨a, ha⟩, ⟨b, hb⟩, ⟨c, hc⟩, ⟨d, hd⟩, ⟨e, he⟩, -⟩, ⟨⟨f, hf⟩, ⟨g, hg⟩, ⟨i, hi⟩, ⟨j, hj⟩, -⟩,
    ⟨⟨k, hk⟩, ⟨l, hl⟩, ⟨m, hm⟩, -⟩, ⟨⟨n, hn⟩, ⟨o, ho⟩, ⟨p, hp⟩, ⟨q, hq⟩, ⟨r, hr⟩, -⟩,
    ⟨⟨u, hu⟩, -⟩⟩ := h
  exact ⟨⟨⟨a, b, c, d, e⟩, ⟨f, g, i, j⟩, ⟨k, l, m⟩, ⟨n, o, p, q, r⟩, ⟨u⟩⟩,
    ⟨ha, hb, hc, hd, he, nofun⟩, ⟨hf, hg, hi, hj, nofun⟩, ⟨hk, hl, hm, nofun⟩,
    ⟨hn, ho, hp, hq, hr, nofun⟩, ⟨hu, nofun⟩⟩

end Decode

/-! ## 3. Decoding one field -/

theorem decodeItems_texts (key : String) (n : Nat) (origin : Option String) (names : List String) :
    decodeItems key n (names.map fun name => .scalar origin (.text name)) = .ok names := by
  induction names generalizing n with
  | nil => rfl
  | cons name names ih =>
    rw [List.map_cons, decodeItems, ih]
    rfl

namespace Field

variable {α : Type} {f : Field α} {t : Tree}

theorem read_of_table {origin : Option String} {entries : List (String × Tree)}
    (h : t.child? f.table = some (.table origin entries)) : f.read t =
      match entries.lookup f.name with
      | some new => f.decode f.key new
      | none => .ok (f.get default) := by
  rw [read, findSection, h]
  show SectionSource.read (.byKey f.table entries) f.name f.place f.decode (f.get default) = _
  rw [SectionSource.read, SectionSource.field?]
  cases entries.lookup f.name <;> rfl

theorem read_congr {t' : Tree} (h : t'.child? f.table = t.child? f.table) :
    f.read t' = f.read t := by
  rw [read, read, findSection, findSection, h]

theorem read_of_none (h : t.child? f.table = none) : f.read t = .ok (f.get default) := by
  rw [read, findSection, h]
  rfl

/-- Where the table is no other thing, the field is decoded from its entry. -/
theorem read_of_freeFor (h : t.FreeFor f.table) : f.read t =
    match t.grandchild? f.table f.name with
    | some new => f.decode f.key new
    | none => .ok (f.get default) := by
  rcases h with h | ⟨child, h, htable⟩
  · rw [read_of_none h, Tree.grandchild?, h]
    rfl
  · cases child with
    | table origin entries =>
      rw [read_of_table h, Tree.grandchild?, h]
      rfl
    | unset | scalar _ _ | list _ _ => exact htable.elim

end Field

end Settings

end SupervisedWorker
