import AgentHost.Http.Target
import AgentHost.Http.Token
/-!
# Requests

A request has a method, a target and headers. `Request.ofParts` checks its parts
one after the other: the method, the target, then the headers in their order, of
each the name before the value.
-/

namespace AgentHost.Http

open Text (Bytes)

/-- The method of a request. -/
structure Method where
  name : String
  deriving DecidableEq, Repr

namespace Method

/-- Asks for what is at a path. -/
def get : Method := ⟨"GET"⟩

/-- Asks for the head of what `get` would answer. -/
def head : Method := ⟨"HEAD"⟩

/-- The method that the bytes spell. -/
def ofBytes? (bytes : Bytes) : Option Method := (token? bytes).map Method.mk

end Method

/-- A header of a request. Its name is in lower case. -/
structure Header where
  name : String
  value : Bytes
  deriving DecidableEq, Repr

/-- Why a request is none. -/
inductive RequestError where
  | method
  | target (cause : TargetError)
  | headerName
  | headerValue
  deriving DecidableEq, Repr

/-- The error in words. -/
def RequestError.message : RequestError → String
  | .method => "invalid HTTP method"
  | .target cause => cause.message
  | .headerName => "invalid HTTP header name"
  | .headerValue => "failed to parse header value"

namespace Header

/-- The byte may stand in the value of a header. -/
def isValueByte (b : UInt8) : Bool := b = 0x09 || (0x20 ≤ b && b ≠ 0x7F)

/-- The header of a name and a value. -/
def ofParts (name value : Bytes) : Except RequestError Header :=
  match token? name with
  | none => .error .headerName
  | some name =>
    if value.all isValueByte then .ok ⟨name.toLower, value⟩ else .error .headerValue

end Header

/-- A request, without its body. -/
structure Request where
  method : Method
  target : Target
  headers : List Header
  deriving DecidableEq, Repr

namespace Request

/-- The request that is made of the parts. -/
def ofParts (method target : Bytes) (headers : List (Bytes × Bytes)) :
    Except RequestError Request := do
  let some method := Method.ofBytes? method | .error .method
  let target ← (Target.parse target).mapError .target
  let headers ← headers.mapM fun (name, value) => Header.ofParts name value
  .ok ⟨method, target, headers⟩

end Request

end AgentHost.Http
