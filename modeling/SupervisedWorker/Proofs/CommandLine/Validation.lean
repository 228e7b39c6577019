import SupervisedWorker.CommandLine.Answer
import SupervisedWorker.Proofs.Settings.Reload

/-!
# Validating settings

Validation accepts what a run accepts, and shows the settings as text that a file may hold. Such a
file has the same settings as long as their numbers fit 64 bits with a sign. The loader takes larger
numbers as well, if they come as texts, but does not read them where they stand as numbers.

Result: `validation_and_reload`. `large_not_reloaded` has settings that are valid and shown, and
refused in the form in which they are shown.
-/

namespace SupervisedWorker

namespace CommandLine

open Settings

variable {file : Except LoadError (Option SourceFile)} {environment : List (String × String)}

/-- A run fails to get its settings exactly if they are not loaded; its options change nothing. -/
theorem prepare_eq_settings_iff {o : RunOptions} {e : LoadError} :
    prepare file environment o = .error (.settings e) ↔
      loadSettings file environment = .error e := by
  rw [prepare]
  cases loadSettings file environment with
  | error e' => simp
  | ok s => cases o.role environment <;> simp

/-- Validation is graceful exactly if a run gets its settings, and shows these. What it shows is
loaded as the same settings if their numbers fit 64 bits with a sign and is refused otherwise, and
all settings can come from a file. -/
theorem validation_and_reload (name : Option String) (file : Except LoadError (Option SourceFile))
    (environment : List (String × String)) :
    (match loadSettings file environment with
      | .ok s =>
        Answer.validation name file environment = ⟨.graceful,
          Answer.announcement name ++ "Configuration valid:\n" ++ s.toToml ++ "\n", ""⟩ ∧
        (∀ o e, prepare file environment o ≠ .error (.settings e)) ∧
        ∀ fileName, loadSettings (.ok (some ⟨fileName, s.toToml⟩)) [] =
          if s.FitsToml then .ok s else .error .notToml
      | .error e =>
        (Answer.validation name file environment).status = .bootFailure ∧
        ∀ o, prepare file environment o = .error (.settings e)) ∧
    ∀ s, ∃ source, loadSettings (.ok (some source)) [] = .ok s := by
  refine ⟨?_, fun s => ⟨_, load_quoted s "worker.toml"⟩⟩
  cases hload : loadSettings file environment with
  | ok s =>
    refine ⟨by rw [Answer.validation, hload], fun o e hprepare => ?_, load_toToml s⟩
    cases hload.symm.trans (prepare_eq_settings_iff.mp hprepare)
  | error e =>
    exact ⟨by rw [Answer.validation, hload], fun o => prepare_eq_settings_iff.mpr hload⟩

/-- The default settings with the longest period of all. -/
def longPeriod : Settings :=
  { Settings.default with
    monitor := { Settings.default.monitor with periodMs := 18446744073709551615 } }

/-- The longest period is taken from a text and shown as a number, which is then refused. -/
theorem large_not_reloaded :
    loadSettings (.ok (some ⟨"worker.toml",
        "[monitor]\nperiod_ms = \"18446744073709551615\"\n"⟩)) [] = .ok longPeriod ∧
      loadSettings (.ok (some ⟨"worker.toml", longPeriod.toToml⟩)) [] = .error .notToml := by
  have hlarge : ¬longPeriod.FitsToml :=
    fun h => absurd (h longPeriod.monitor.periodMs (.tail _ (.head _))) (by decide)
  constructor
  · decide +kernel
  · rw [loadSettings, Except.bind, load_toToml, if_neg hlarge]

end CommandLine

end SupervisedWorker
