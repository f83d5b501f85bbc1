import AgentHost.Api.Build
import AgentHost.Api.Problem
import AgentHost.Http.Request
/-!
# Routes

There are four routes, each with one exact path. A route answers `GET`; `HEAD`
gets the same answer without its body. Any other method on a route, and any other
path, is answered by a problem. The query is never looked at.
-/

namespace AgentHost.Api

open Http (Method Request Response Status)

/-- The agents that the server knows, in a stable order. -/
structure Catalog where
  agents : List Agent
  /-- How long it takes to list them, in milliseconds. -/
  delay : Nat
  deriving DecidableEq, Repr

/-- The catalog without agents. -/
def Catalog.empty : Catalog := ⟨[], 0⟩

/-- A place that answers. -/
inductive Route where
  | live
  | ready
  | version
  | agents
  deriving DecidableEq, Repr

namespace Route

/-- The path of a route. -/
def path : Route → String
  | .live => "/livez"
  | .ready => "/readyz"
  | .version => "/version"
  | .agents => "/api/v1/agents"

/-- All routes. -/
def all : List Route := [.live, .ready, .version, .agents]

/-- The route at a path. -/
def ofPath? (path : String) : Option Route := all.find? (·.path = path)

end Route

/-- What all requests share. -/
structure Router where
  build : Build
  catalog : Catalog

namespace Router

/-- The answer that something is well. -/
def well : Answer := ⟨⟨.ok, [("content-type", Http.plainText)], "ok"⟩, []⟩

/-- What a route has to say. -/
def content (r : Router) : Route → Answer
  | .live | .ready => well
  | .version => .json .ok (VersionInfo.toPayload ⟨r.build.version, r.build.compiler⟩)
  | .agents => .json .ok (AgentList.toPayload ⟨r.catalog.agents⟩)

/-- The problem that a path has no route. -/
def missing (path : String) : Problem :=
  ((Problem.ofStatus .notFound Problem.notFoundType "Not Found").withDetail
    ("no route for " ++ path)).withInstance path

/-- The problem that a route does not know a method. -/
def unsupported (method : Method) (path : String) : Problem :=
  ((Problem.ofStatus .methodNotAllowed Problem.methodNotAllowedType
    "Method Not Allowed").withDetail
      (method.name ++ " is not supported for " ++ path)).withInstance path

/-- The methods that routes know, as a header tells them. -/
def allowed : String := "GET,HEAD"

/-- The method asks for what is at a path. -/
def isReading (m : Method) : Bool := m = .get || m = .head

/-- The answer before its length is told. -/
def draft (r : Router) (request : Request) : Answer :=
  let path := request.target.path
  match Route.ofPath? path with
  | none => .problem (missing path)
  | some route =>
    if isReading request.method then r.content route
    else
      let answer := Answer.problem (unsupported request.method path)
      { answer with response := answer.response.addHeader "allow" allowed }

/-- The answer to a request. -/
def answer (r : Router) (request : Request) : Answer :=
  let answer := r.draft request
  let response := answer.response.withLength
  { answer with
    response := if request.method = .head then response.withoutBody else response }

/-- Answering the request takes a listing of the catalog. -/
def lists (request : Request) : Bool :=
  Route.ofPath? request.target.path = some .agents && isReading request.method

end Router

end AgentHost.Api
