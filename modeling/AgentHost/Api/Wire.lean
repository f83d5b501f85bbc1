import AgentHost.Json.Payload
/-!
# What goes over the wire

The values that the server sends and its clients read: problems, agents, lists of
agents and the version. An optional member that is not there is left out.
-/

namespace AgentHost.Api

open Json (Payload)

/-- What is wrong, for a client to read. -/
structure Problem where
  type : String
  title : String
  status : UInt16
  detail : Option String
  resource : Option String
  deriving DecidableEq, Repr

/-- An agent as it is listed. -/
structure Agent where
  name : String
  description : Option String
  version : Option String
  deriving DecidableEq, Repr

/-- The agents that are known. -/
structure AgentList where
  agents : List Agent
  deriving DecidableEq, Repr

/-- The release of the server and the compiler that built it. -/
structure VersionInfo where
  version : String
  compiler : String
  deriving DecidableEq, Repr

/-- A member with text. -/
def textMember (name value : String) : List (String × Payload) := [(name, .text value)]

/-- A member with text that may be absent. -/
def optionalMember (name : String) : Option String → List (String × Payload)
  | some value => [(name, .text value)]
  | none => []

namespace Problem

/-- The problem as a payload. -/
def toPayload (p : Problem) : Payload :=
  .record (textMember "type" p.type ++ textMember "title" p.title
    ++ [("status", .integer p.status.toNat)]
    ++ optionalMember "detail" p.detail ++ optionalMember "instance" p.resource)

end Problem

namespace Agent

/-- The agent as a payload. -/
def toPayload (a : Agent) : Payload :=
  .record (textMember "name" a.name
    ++ optionalMember "description" a.description ++ optionalMember "version" a.version)

end Agent

namespace AgentList

/-- The list as a payload. -/
def toPayload (l : AgentList) : Payload :=
  .record [("agents", .list (l.agents.map Agent.toPayload))]

end AgentList

namespace VersionInfo

/-- The version as a payload. Clients read the compiler under `go`. -/
def toPayload (v : VersionInfo) : Payload :=
  .record (textMember "version" v.version ++ textMember "go" v.compiler)

end VersionInfo

end AgentHost.Api
