import AgentHost.Json.Token
/-!
# A plain tree as a payload

A tree that was read can be written again. Its numbers are integers of 64 bits
where they are written so and fit, and otherwise rounded; its members are sorted
by their names, byte by byte.
-/

namespace AgentHost.Json

/-- The payload of a number as it is written. -/
def numberPayload (literal : List Char) : Payload :=
  let (negative, digits) := match literal with
    | '-' :: rest => (true, rest)
    | rest => (false, rest)
  match Token.readNumber negative (Cursor.start digits) with
  | .ok (.unsigned n, _) => .integer n
  | .ok (.negative n, _) => .integer n
  | .ok (.real x, _) => .real (.double x)
  | .error e => .failing e.message

/-- The first text comes before the second, byte by byte. Characters and the bytes
that encode them have the same order. -/
def comesBefore : List Char → List Char → Bool
  | [], _ => true
  | _ :: _, [] => false
  | a :: as, b :: bs => a < b || (a == b && comesBefore as bs)

mutual

/-- The payload of a tree. -/
def Value.toPayload : Value → Payload
  | .null => .null
  | .bool b => .bool b
  | .number literal => numberPayload literal
  | .string cs => .text (String.ofList cs)
  | .array items => .list (Value.toPayloads items)
  | .object members =>
    .map (((Value.memberPayloads members).mergeSort fun a b => comesBefore a.1 b.1).map fun m =>
      (.text (String.ofList m.1), m.2))

/-- The payloads of some trees. -/
def Value.toPayloads : List Value → List Payload
  | [] => []
  | v :: rest => v.toPayload :: Value.toPayloads rest

/-- The names and payloads of some members. -/
def Value.memberPayloads : List (List Char × Value) → List (List Char × Payload)
  | [] => []
  | (name, v) :: rest => (name, v.toPayload) :: Value.memberPayloads rest

end

end AgentHost.Json
