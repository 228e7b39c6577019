import SupervisedWorker.CommandLine
import SupervisedWorker.Role
import SupervisedWorker.Service.NameList
import SupervisedWorker.Settings.Load

/-!
# Preparing a run

A run needs settings and a role. The settings come from their file and the environment, and options
replace some of them. The role comes from the options if they give the agent's ids, which are then
taken as they are, and from the environment otherwise.
-/

namespace SupervisedWorker

namespace CommandLine

/-- Why a run cannot be prepared. -/
inductive PrepareError
  | settings (cause : Settings.LoadError)
  | role (cause : RoleError)
deriving DecidableEq, Repr, Inhabited

/-- A load error with what it is the cause of. -/
def settingsTrouble (e : Settings.LoadError) : String :=
  s!"configuration error: {e.message}: {e.message}"

/-- The text of an error in the preparation. -/
def PrepareError.message : PrepareError → String
  | .settings cause => s!"Failed to load configuration: {settingsTrouble cause}"
  | .role cause => s!"Failed to determine process role: {cause.message}"

/-- Replaces the settings that the options give. -/
def RunOptions.override (o : RunOptions) (s : Settings) : Settings :=
  { s with
    general := { s.general with
      workDir := o.workDir.getD s.general.workDir
      services := (o.services.map ServiceList.parse).getD s.general.services } }

/-- The role of the process. -/
def RunOptions.role (o : RunOptions) (environment : List (String × String)) :
    Except RoleError Role :=
  match o.agentId, o.serviceId with
  | some agentId, some serviceId => .ok (.supervised ⟨agentId, serviceId⟩)
  | _, _ => Role.fromEnvironment fun name => List.lookup name environment

/-- The settings from a file, which may not have been found, and the environment. -/
def loadSettings (file : Except Settings.LoadError (Option Settings.SourceFile))
    (environment : List (String × String)) : Except Settings.LoadError Settings :=
  file.bind fun file => Settings.load file environment

/-- The settings and the role of a run. -/
def prepare (file : Except Settings.LoadError (Option Settings.SourceFile))
    (environment : List (String × String)) (o : RunOptions) :
    Except PrepareError (Settings × Role) :=
  match loadSettings file environment with
  | .error e => .error (.settings e)
  | .ok settings =>
    match o.role environment with
    | .error e => .error (.role e)
    | .ok role => .ok (o.override settings, role)

end CommandLine

end SupervisedWorker
