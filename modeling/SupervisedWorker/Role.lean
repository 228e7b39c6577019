import SupervisedWorker.Text.Blank
import SupervisedWorker.Text.Lowercase
import SupervisedWorker.Text.Quoted

/-!
# The role of a process

A process stands alone, or an agent supervises it and has told it two names: the id of the worker
and the service id of the agent. Which of the two it is depends on the environment: a worker id
makes the process supervised, and then the service id must be there too.
-/

namespace SupervisedWorker

/-- The names by which a worker and its agent find each other's files. -/
structure AgentIdentity where
  /-- The id that the agent gave to this worker. -/
  agentId : String
  /-- The service id of the agent. -/
  serviceId : String
deriving DecidableEq, Repr, Inhabited

/-- Whether an agent supervises the process. -/
inductive Role
  | standalone
  | supervised (identity : AgentIdentity)
deriving DecidableEq, Repr, Inhabited

/-- An identity of which only the worker's id is known. -/
inductive RoleError
  | missingServiceId (agentId : String)
deriving DecidableEq, Repr, Inhabited

/-- The text of a role error. -/
def RoleError.message : RoleError → String
  | .missingServiceId agentId =>
    s!"invalid process role: WORKER_AGENT_ID is set to {Text.quoted agentId} "
      ++ "but WORKER_SERVICE_ID is missing"

namespace Role

/-- A variable without the blanks around it; one that is all blank counts as missing. -/
def nonBlank (lookup : String → Option String) (name : String) : Option String :=
  (lookup name).bind fun value =>
    let value := Text.trimmed value
    if value = "" then none else some value

/-- The role that the environment gives to the process. -/
def fromEnvironment (lookup : String → Option String) : Except RoleError Role :=
  match nonBlank lookup "WORKER_AGENT_ID" with
  | none => .ok .standalone
  | some agentId =>
    match nonBlank lookup "WORKER_SERVICE_ID" with
    | none => .error (.missingServiceId agentId)
    | some serviceId => .ok (.supervised ⟨agentId, serviceId⟩)

def isSupervised : Role → Bool
  | standalone => false
  | supervised _ => true

/-- The identity of a supervised process. -/
def identity? : Role → Option AgentIdentity
  | standalone => none
  | supervised i => some i

/-- The role as text. -/
def text : Role → String
  | standalone => "standalone"
  | supervised i => s!"supervised(agent={i.agentId}, service={i.serviceId})"

/-- The name of a service as it occurs in the name of a log. -/
def logPart (service : String) : String :=
  Text.lower (String.ofList (service.toList.map fun c => if c == ' ' then '_' else c))

/-- The name of the log before the role is added: the service type if there is one, else the
services, else just `worker`. -/
def logBase (serviceType : Option String) (services : List String) : String :=
  let given := Text.trimmed (serviceType.getD "")
  if given ≠ "" then given
  else if services = [] then "worker"
  else String.intercalate "_" (services.map logPart)

/-- The name of the process' log; a supervised process adds its worker id. -/
def logName (role : Role) (serviceType : Option String) (services : List String) : String :=
  match role with
  | standalone => logBase serviceType services
  | supervised i => logBase serviceType services ++ "_" ++ i.agentId

end Role

end SupervisedWorker
