import AgentHost.Api.Wire
import AgentHost.Json.Decode
/-!
# Reading what goes over the wire

The shapes of the records that are sent, and the readers that they give. Optional
members may be left out or be `null`.
-/

namespace AgentHost.Api

open Json (DecodeError)
open Json.Decode (Member Shape)

/-- A member that is a text. -/
def textField {σ : Type} (name : String) (put : σ → String → σ) : Member σ :=
  ⟨name, true, fun value c => do
    let (s, c) ← Json.Decode.text c
    .ok (put value s, c)⟩

/-- A member that is a text or nothing. -/
def optionalField {σ : Type} (name : String) (put : σ → Option String → σ) : Member σ :=
  ⟨name, false, fun value c => do
    let (s, c) ← Json.Decode.optionalText c
    .ok (put value s, c)⟩

namespace Problem

/-- The shape of a problem. -/
def shape : Shape Problem where
  name := "ProblemDetail"
  members := [
    textField "type" fun p s => { p with type := s },
    textField "title" fun p s => { p with title := s },
    ⟨"status", true, fun p c => do
      let (n, c) ← Json.Decode.word c
      .ok ({ p with status := n }, c)⟩,
    optionalField "detail" fun p s => { p with detail := s },
    optionalField "instance" fun p s => { p with resource := s }]
  start := ⟨"", "", 0, none, none⟩

/-- Reads a problem. -/
def decode (cs : List Char) : Except DecodeError Problem :=
  Json.Decode.whole (Json.Decode.record shape) cs

end Problem

namespace Agent

/-- The shape of an agent. -/
def shape : Shape Agent where
  name := "AgentSummary"
  members := [
    textField "name" fun a s => { a with name := s },
    optionalField "description" fun a s => { a with description := s },
    optionalField "version" fun a s => { a with version := s }]
  start := ⟨"", none, none⟩

/-- Reads an agent. -/
def decode (cs : List Char) : Except DecodeError Agent :=
  Json.Decode.whole (Json.Decode.record shape) cs

end Agent

namespace AgentList

/-- The shape of a list of agents. -/
def shape : Shape AgentList where
  name := "ListAgentsResponse"
  members := [
    ⟨"agents", true, fun _ c => do
      let (agents, c) ← Json.Decode.list (Json.Decode.record Agent.shape) c
      .ok (⟨agents⟩, c)⟩]
  start := ⟨[]⟩

/-- Reads a list of agents. -/
def decode (cs : List Char) : Except DecodeError AgentList :=
  Json.Decode.whole (Json.Decode.record shape) cs

end AgentList

namespace VersionInfo

/-- The shape of a version. -/
def shape : Shape VersionInfo where
  name := "VersionResponse"
  members := [
    textField "version" fun v s => { v with version := s },
    textField "go" fun v s => { v with compiler := s }]
  start := ⟨"", ""⟩

/-- Reads a version. -/
def decode (cs : List Char) : Except DecodeError VersionInfo :=
  Json.Decode.whole (Json.Decode.record shape) cs

end VersionInfo

end AgentHost.Api
