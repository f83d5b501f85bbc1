import AgentHost.Text.Utf8
/-!
# Tokens

A token is a word made of letters, digits and a few marks. Methods and the names
of headers are tokens.
-/

namespace AgentHost.Http

open Text (Bytes)

/-- The marks that may stand in a token. -/
def tokenMarks : List Char :=
  ['!', '#', '$', '%', '&', '\'', '*', '+', '-', '.', '^', '_', '`', '|', '~']

/-- The character may stand in a token. -/
def isTokenChar (c : Char) : Bool :=
  c.isAlphanum || tokenMarks.contains c

/-- The bytes as characters below 256, one each. -/
def charsOf (bytes : Bytes) : List Char :=
  bytes.map fun b => Char.ofNat b.toNat

/-- The token that the bytes spell, if they spell one. -/
def token? (bytes : Bytes) : Option String :=
  let cs := charsOf bytes
  if cs ≠ [] ∧ cs.all isTokenChar then some (String.ofList cs) else none

end AgentHost.Http
