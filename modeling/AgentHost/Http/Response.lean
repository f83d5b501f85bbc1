import AgentHost.Http.Status
import AgentHost.Text.Utf8
/-!
# Responses

A response has a status, headers with lower-case names, and a body of text.
-/

namespace AgentHost.Http

/-- A response. -/
structure Response where
  status : Status
  headers : List (String × String)
  body : String
  deriving DecidableEq, Repr

namespace Response

/-- The value of a header. -/
def header? (r : Response) (name : String) : Option String := r.headers.lookup name

/-- The response with a header more. -/
def addHeader (r : Response) (name value : String) : Response :=
  { r with headers := r.headers ++ [(name, value)] }

/-- The bytes of the body. -/
def length (r : Response) : Nat := (Text.Utf8.ofString r.body).length

/-- The response with the header that tells the length of its body. -/
def withLength (r : Response) : Response :=
  r.addHeader "content-length" (toString r.length)

/-- The response without its body. -/
def withoutBody (r : Response) : Response := { r with body := "" }

end Response

/-- The type of plain text. -/
def plainText : String := "text/plain; charset=utf-8"

end AgentHost.Http
