import SupervisedWorker.Time.Duration
import SupervisedWorker.Toml.Writer

/-!
# The settings of a worker

Settings come in five sections. Times are given in milliseconds, and the age at which old logs go in
days. `Settings.toToml` writes all settings with their effective values.
-/

namespace SupervisedWorker

/-- Where the worker lives and what it runs. -/
structure GeneralSettings where
  workDir : String
  services : List String
  logDir : String
  logRetentionDays : UInt64
  /-- Whether a console for developers is offered. -/
  tokioConsole : Bool
deriving DecidableEq, Repr

/-- The rounds of the monitor. -/
structure MonitorSettings where
  periodMs : UInt64
  pauseWarningMs : UInt64
  housekeepingEnabled : Bool
  housekeepingMaxFailures : UInt32
deriving DecidableEq, Repr

/-- The watch for the stop marker. -/
structure WatcherSettings where
  pollIntervalMs : UInt64
  deleteAttempts : UInt32
  deleteBackoffMs : UInt64
deriving DecidableEq, Repr

/-- The end of the process. -/
structure ShutdownSettings where
  hookTimeoutMs : UInt64
  completionToken : String
  exitLingerMs : UInt64
  signalLingerMs : UInt64
  orphanGraceMs : UInt64
deriving DecidableEq, Repr

/-- The names of the agent's probes. -/
structure ProbeSettings where
  probePrefix : String
deriving DecidableEq, Repr

/-- All settings of a worker. -/
structure Settings where
  general : GeneralSettings
  monitor : MonitorSettings
  watcher : WatcherSettings
  shutdown : ShutdownSettings
  probe : ProbeSettings
deriving DecidableEq, Repr

namespace Settings

/-- The settings that hold where nothing else is said. -/
def default : Settings where
  general := ⟨"./work", [], "./logs", 7, false⟩
  monitor := ⟨10000, 60000, true, 3⟩
  watcher := ⟨1000, 5, 5⟩
  shutdown := ⟨10000, "gsa-exit-done", 20, 200, 1000⟩
  probe := ⟨"gsa"⟩

instance : Inhabited Settings := ⟨default⟩

/-- A span given in milliseconds. -/
def millis (n : UInt64) : Duration := .ofMillis n.toNat

/-- The age at which a rolled log goes; as seconds it must fit 64 bits. -/
def logRetention (s : Settings) : Duration :=
  .ofSecs (min (s.general.logRetentionDays.toNat * 86400) (UInt64.size - 1))

/-- The sections and their keys as they are written. -/
def sections (s : Settings) : List Toml.Section :=
  [⟨"general",
      [("work_dir", .text s.general.workDir), ("services", .texts s.general.services),
        ("log_dir", .text s.general.logDir),
        ("log_retention_days", .number s.general.logRetentionDays.toNat),
        ("tokio_console", .boolean s.general.tokioConsole)]⟩,
    ⟨"monitor",
      [("period_ms", .number s.monitor.periodMs.toNat),
        ("pause_warning_ms", .number s.monitor.pauseWarningMs.toNat),
        ("housekeeping_enabled", .boolean s.monitor.housekeepingEnabled),
        ("housekeeping_max_failures", .number s.monitor.housekeepingMaxFailures.toNat)]⟩,
    ⟨"watcher",
      [("poll_interval_ms", .number s.watcher.pollIntervalMs.toNat),
        ("delete_attempts", .number s.watcher.deleteAttempts.toNat),
        ("delete_backoff_ms", .number s.watcher.deleteBackoffMs.toNat)]⟩,
    ⟨"shutdown",
      [("hook_timeout_ms", .number s.shutdown.hookTimeoutMs.toNat),
        ("completion_token", .text s.shutdown.completionToken),
        ("exit_linger_ms", .number s.shutdown.exitLingerMs.toNat),
        ("signal_linger_ms", .number s.shutdown.signalLingerMs.toNat),
        ("orphan_grace_ms", .number s.shutdown.orphanGraceMs.toNat)]⟩,
    ⟨"probe", [("prefix", .text s.probe.probePrefix)]⟩]

/-- All settings as TOML. -/
def toToml (s : Settings) : String := String.ofList (Toml.write s.sections)

end Settings

end SupervisedWorker
