import AgentHost.Api.Router
import AgentHost.Config
import AgentHost.Deadline.Handler
/-!
# Answering under the configured limits

Every request is answered under the limits of the configuration. Where the limit
on the answer is met, the answer is 408 with an empty body.
-/

namespace AgentHost.Api

open Deadline (Body Handler Limits Outcome)
open Http (Request Response)

/-- The limits that are configured. -/
def limits (s : ServerSettings) : Limits :=
  ⟨s.readTimeout.toNat * 1000, s.writeTimeout.toNat * 1000⟩

/-- The answer where time ran out. -/
def timedOut : Response := Response.withLength ⟨.requestTimeout, [], ""⟩

/-- What a client gets. -/
def received (o : Outcome Answer) : Answer := o.answer?.getD ⟨timedOut, []⟩

namespace Router

/-- How a request is answered. A listing holds up everything else. -/
def handler (r : Router) (request : Request) : Handler Answer :=
  if lists request then .work r.catalog.delay (.answer (r.answer request))
  else .answer (r.answer request)

/-- Answers a request under the configured limits. -/
def serve (r : Router) (s : ServerSettings) (request : Request) : Outcome Answer :=
  (r.handler request).run (limits s) .spent

/-- What a client gets for a request. -/
def respond (r : Router) (s : ServerSettings) (request : Request) : Answer :=
  received (r.serve s request)

end Router

/-! ## Uploads -/

/-- A response with plain text. -/
def textResponse (status : Http.Status) (text : String) : Response :=
  Response.withLength ⟨status, [("content-type", Http.plainText)], text⟩

/-- Answers with what the client sent, after a pause. An error is answered at once. -/
def echo (pause : Nat) : Handler Answer :=
  .read fun
    | .ok text => .sleep pause (.answer ⟨textResponse .ok text, []⟩)
    | .error e => .answer ⟨textResponse .badRequest e.message, []⟩

/-- Answers after a pause without a look at what the client sent. -/
def ignore (pause : Nat) : Handler Answer :=
  .sleep pause (.answer ⟨textResponse .ok "", []⟩)

end AgentHost.Api
