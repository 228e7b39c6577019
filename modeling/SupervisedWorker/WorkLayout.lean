import SupervisedWorker.Role

/-!
# Where the agent's files lie

An agent and its workers share a work directory. In it, `agents` holds one probe file for every
worker, which the agent keeps locked while it lives, and `gsa` holds the stop markers that agents
write.
-/

namespace SupervisedWorker

/-- Joins two paths: an absolute second path replaces the first. -/
def joinPath (base path : String) : String :=
  if path.toList.head? = some '/' then path
  else if base = "" || base.toList.getLast? = some '/' then base ++ path
  else base ++ "/" ++ path

/-- A work directory and the first part of the names of its probe files. -/
structure WorkLayout where
  workDir : String
  probePrefix : String
deriving DecidableEq, Repr, Inhabited

namespace WorkLayout

/-- The directory of the probe files. -/
def agentsDir (l : WorkLayout) : String := joinPath l.workDir "agents"

/-- The directory of the stop markers. -/
def commandsDir (l : WorkLayout) : String := joinPath l.workDir "gsa"

/-- How the name of every probe begins. -/
def probeHead (l : WorkLayout) : String := l.probePrefix ++ "-"

/-- How the name of every probe of a worker ends. -/
def probeTail (i : AgentIdentity) : String := "~" ++ i.agentId

/-- The name of a worker's own probe. -/
def probeName (l : WorkLayout) (i : AgentIdentity) : String :=
  l.probeHead ++ i.serviceId ++ probeTail i

/-- Where a worker's own probe lies. -/
def probePath (l : WorkLayout) (i : AgentIdentity) : String := joinPath l.agentsDir (l.probeName i)

/-- The name of the marker that tells a worker to stop. -/
def stopName (i : AgentIdentity) : String := s!"gsa-{i.serviceId}-{i.agentId}-stop"

/-- Where the marker lies that tells a worker to stop. -/
def stopPath (l : WorkLayout) (i : AgentIdentity) : String := joinPath l.commandsDir (stopName i)

end WorkLayout

end SupervisedWorker
