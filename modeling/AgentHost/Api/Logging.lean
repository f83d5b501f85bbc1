import AgentHost.Api.Problem
import AgentHost.Log.Entry
/-!
# What answering leaves in the log

An answer that could not be written is told to the log as an error.
-/

namespace AgentHost.Api

/-- The part of the program that answers. -/
def logSource : String := "agnx_api::log"

/-- The entry of the log on what went wrong. -/
def LogEntry.toEntry (e : LogEntry) : Log.Entry :=
  ⟨.error, logSource, e.message, [("error", .shown e.error)]⟩

end AgentHost.Api
