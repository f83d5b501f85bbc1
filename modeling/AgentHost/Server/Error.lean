import AgentHost.Config.Load
import AgentHost.Duration
/-!
# Why the server ends

A `ServerError` says why a server did not start or did not end well, a
`StartError` why the program did not. Each has a message, and the chain of its
causes, the nearest first.
-/

namespace AgentHost

/-- Why a server did not start, or did not end well. -/
inductive ServerError where
  | bind (address : String) (cause : IoError)
  | serve (cause : IoError)
  /-- The task that serves broke down. -/
  | task (cause : String)
  | stopped
  | shutdownTimeout (grace : Duration)
  deriving DecidableEq, Repr

namespace ServerError

/-- The error in one sentence. -/
def message : ServerError → String
  | .bind address cause => "bind failed on " ++ address ++ ": " ++ cause.message
  | .serve cause => "server error: " ++ cause.message
  | .task cause => "server task failed: " ++ cause
  | .stopped => "server stopped before shutdown was requested"
  | .shutdownTimeout grace =>
    "shutdown: in-flight requests did not finish within " ++ toString grace.seconds ++ "s"

/-- What caused the error. -/
def causes : ServerError → List String
  | .bind _ cause => [cause.message]
  | .serve cause => [cause.message]
  | .task cause => [cause]
  | .stopped => []
  | .shutdownTimeout _ => []

end ServerError

/-- Why the program ends with a failure. -/
inductive StartError where
  | config (cause : Config.LoadError)
  | server (cause : ServerError)
  deriving DecidableEq, Repr

namespace StartError

/-- The error in one sentence. -/
def message : StartError → String
  | .config cause => "load config: " ++ cause.message
  | .server cause => cause.message

/-- What caused the error, the nearest cause first. -/
def causes : StartError → List String
  | .config cause => [cause.message, cause.cause]
  | .server cause => cause.message :: cause.causes

end StartError

end AgentHost
