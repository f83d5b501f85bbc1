/-!
# Status codes

The code of a response is a number from 100 to 999.
-/

namespace AgentHost.Http

/-- The code of a response. -/
structure Status where
  code : Nat
  isLeast : 100 ≤ code := by decide
  isGreatest : code ≤ 999 := by decide
  deriving DecidableEq, Repr

namespace Status

/-- The status of a number, if it is one. -/
def ofNat? (n : Nat) : Option Status :=
  if h : 100 ≤ n ∧ n ≤ 999 then some ⟨n, h.1, h.2⟩ else none

/-- The request was answered. -/
def ok : Status := ⟨200, by decide, by decide⟩

/-- The request makes no sense. -/
def badRequest : Status := ⟨400, by decide, by decide⟩

/-- There is nothing at that path. -/
def notFound : Status := ⟨404, by decide, by decide⟩

/-- The path does not know that method. -/
def methodNotAllowed : Status := ⟨405, by decide, by decide⟩

/-- The answer took too long. -/
def requestTimeout : Status := ⟨408, by decide, by decide⟩

/-- The server failed. -/
def internalServerError : Status := ⟨500, by decide, by decide⟩

end Status

end AgentHost.Http
