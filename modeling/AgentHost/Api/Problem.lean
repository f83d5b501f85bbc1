import AgentHost.Api.Wire
import AgentHost.Http.Response
/-!
# Problems and answers

`Answer.json` writes a payload as the body of a response. A payload that cannot
be written leaves no trace in the response: the answer is then a fixed problem,
and the reason is logged.

`Answer.problem` answers a problem under its own status. A number that is no
status is answered as 500, in the body too.
-/

namespace AgentHost.Api

open Http (Status Response)
open Json (Payload EncodeError)

namespace Problem

/-- The type of a problem that something is missing. -/
def notFoundType : String := "https://agnx.dev/problems/not-found"

/-- The type of a problem with a request. -/
def badRequestType : String := "https://agnx.dev/problems/bad-request"

/-- The type of a problem of the server. -/
def internalErrorType : String := "https://agnx.dev/problems/internal-error"

/-- The type of a problem with a method. -/
def methodNotAllowedType : String := "https://agnx.dev/problems/method-not-allowed"

/-- A problem with nothing more to say. -/
def ofStatus (status : Status) (type title : String) : Problem :=
  ⟨type, title, UInt16.ofNat status.code, none, none⟩

/-- The problem with a detail. An empty text is none. -/
def withDetail (p : Problem) (detail : String) : Problem :=
  { p with detail := if detail = "" then none else some detail }

/-- The problem with the resource that has it. -/
def withInstance (p : Problem) (resource : String) : Problem :=
  { p with resource := some resource }

/-- The status to answer with: the problem's own, or 500 where that is none. -/
def statusCode (p : Problem) : Status :=
  (Status.ofNat? p.status.toNat).getD .internalServerError

end Problem

/-- A line for the log of errors: what was attempted, and what went wrong. -/
structure LogEntry where
  message : String
  error : String
  deriving DecidableEq, Repr

/-- A response and what is logged with it. -/
structure Answer where
  response : Response
  log : List LogEntry
  deriving DecidableEq, Repr

namespace Answer

/-- The type of every JSON body. -/
def jsonType : String := "application/json; charset=utf-8"

/-- A response with a JSON body. -/
def jsonResponse (status : Status) (body : List Char) : Response :=
  ⟨status, [("content-type", jsonType)], String.ofList body⟩

/-- The problem of a payload that cannot be written. -/
def encodeProblem : Problem :=
  (Problem.ofStatus .internalServerError Problem.internalErrorType "Internal Server Error").withDetail
    "failed to encode response body"

/-- The text of a payload, or nothing where it cannot be written. -/
def bodyOf (p : Payload) : List Char :=
  match p.encode with
  | .ok body => body
  | .error _ => []

/-- Answers a payload. -/
def json (status : Status) (payload : Payload) : Answer :=
  match payload.encode with
  | .ok body => ⟨jsonResponse status body, []⟩
  | .error e =>
    ⟨jsonResponse .internalServerError (bodyOf encodeProblem.toPayload),
      [⟨"encode response", e.message⟩]⟩

/-- Answers a problem. -/
def problem (p : Problem) : Answer :=
  let status := p.statusCode
  json status { p with status := UInt16.ofNat status.code }.toPayload

/-- Answers a problem that is made of its parts. -/
def error (status : Status) (type title detail : String) : Answer :=
  problem ((Problem.ofStatus status type title).withDetail detail)

/-- Answers that something is missing. -/
def notFound (detail : String) : Answer :=
  error .notFound Problem.notFoundType "Not Found" detail

/-- Answers that a request makes no sense. -/
def badRequest (detail : String) : Answer :=
  error .badRequest Problem.badRequestType "Bad Request" detail

/-- Answers that the server failed. -/
def internalError (detail : String) : Answer :=
  error .internalServerError Problem.internalErrorType "Internal Server Error" detail

/-- Answers that a method is not known. -/
def methodNotAllowed (detail : String) : Answer :=
  error .methodNotAllowed Problem.methodNotAllowedType "Method Not Allowed" detail

end Answer

end AgentHost.Api
