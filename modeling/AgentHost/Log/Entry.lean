import AgentHost.Json.Payload
import AgentHost.Text.Quoted
/-!
# Entries of the log

An entry says how grave it is, where it comes from and what happened, with named
values. It is written as a line of text or as a line of JSON. A text value stands
between quotes in a line of text; a shown value stands there as it is.
-/

namespace AgentHost.Log

open Json (Payload)

/-- How grave an entry is. -/
inductive Level where
  | error
  | warn
  | info
  deriving DecidableEq, Repr

namespace Level

/-- The level in five letters. -/
def padded : Level → String
  | .error => "ERROR"
  | .warn => " WARN"
  | .info => " INFO"

/-- The name of the level. -/
def name : Level → String
  | .error => "ERROR"
  | .warn => "WARN"
  | .info => "INFO"

/-- How much has to be let through for the level to be. -/
def rank : Level → Nat
  | .error => 1
  | .warn => 2
  | .info => 3

end Level

/-- A value in an entry. -/
inductive Value where
  | text (s : String)
  | shown (s : String)
  | number (n : Nat)
  deriving DecidableEq, Repr

namespace Value

/-- The value in a line of text. -/
def line : Value → String
  | .text s => Text.Quoted.ofString s
  | .shown s => s
  | .number n => toString n

/-- The value in a line of JSON. -/
def payload : Value → Payload
  | .text s => .text s
  | .shown s => .text s
  | .number n => .integer n

end Value

/-- An entry of the log. -/
structure Entry where
  level : Level
  /-- The part of the program that it comes from. -/
  source : String
  message : String
  fields : List (String × Value)
  deriving DecidableEq, Repr

namespace Entry

/-- An entry that tells of something usual. -/
def info (source message : String) (fields : List (String × Value)) : Entry :=
  ⟨.info, source, message, fields⟩

/-- The entry as a line of text without its time. -/
def untimed (e : Entry) : String :=
  e.level.padded ++ " " ++ e.source ++ ": " ++ e.message
    ++ String.join (e.fields.map fun (name, value) => " " ++ name ++ "=" ++ value.line)

/-- The entry as a line of text with its time. -/
def line (time : String) (e : Entry) : String := time ++ " " ++ e.untimed

/-- The entry as JSON with its time. -/
def payload (time : String) (e : Entry) : Payload :=
  .record [
    ("timestamp", .text time), ("level", .text e.level.name),
    ("fields", .record (("message", .text e.message)
      :: e.fields.map fun (name, value) => (name, value.payload))),
    ("target", .text e.source)]

/-- The entry as a line of JSON with its time. -/
def jsonLine (time : String) (e : Entry) : String :=
  match (e.payload time).encode with
  | .ok cs => String.ofList cs
  | .error _ => ""

end Entry

end AgentHost.Log
