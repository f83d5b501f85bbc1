import AgentHost.Proofs.Api.Problem
import AgentHost.Proofs.Json.Lists
/-!
# What goes over the wire comes back

A value that is sent can always be written, and what is written of it is read as
that value again. The four kinds of values differ only in their members, so
`roundTrips_of_shape` says once what their members have to satisfy.
-/

namespace AgentHost.Api

open Json (Payload Value Reads DecodeError)
open Json.Decode (Shape)

/-- Every value is written as a text that is read as the value, and no two values
are written alike. -/
structure RoundTrips {σ : Type} (toPayload : σ → Payload) (decode : List Char → Except DecodeError σ) : Prop where
  written : ∀ x, ∃ text, (toPayload x).encode = .ok text ∧ decode text = .ok x
  apart : ∀ x y, (toPayload x).encode = (toPayload y).encode → x = y

theorem roundTrips_of_shape {σ : Type} {s : Shape σ} {put : String → σ → Value → Option σ} (hputs : s.Puts put)
    {toPayload : σ → Payload} (hexact : ∀ x, (toPayload x).isExact = true)
    (hok : ∀ x, ∃ text, (toPayload x).encode = .ok text) (hplain : ∀ x, s.ofValue put (toPayload x).plain = some x) :
    RoundTrips toPayload (Json.Decode.whole (Json.Decode.record s)) := by
  have hdecode : ∀ x text, (toPayload x).encode = .ok text →
      Json.Decode.whole (Json.Decode.record s) text = .ok x := by
    intro x text htext
    have hreads := Json.Decode.reads_value hputs (toPayload x).plain
    rw [hplain x] at hreads
    exact ok_of_toOption (Json.Decode.whole_toOption hreads (Payload.parse_encode (hexact x) htext))
  constructor
  · intro x
    obtain ⟨text, htext⟩ := hok x
    exact ⟨text, htext, hdecode x text htext⟩
  · intro x y hsame
    obtain ⟨text, htext⟩ := hok x
    have hx := hdecode x text htext
    rw [hdecode y text (hsame ▸ htext)] at hx
    exact (Except.ok.inj hx).symm

namespace Problem

theorem roundTrips : RoundTrips toPayload decode := by
  refine roundTrips_of_shape shape_puts isExact_toPayload encode_ok ?_
  intro p
  rw [plain_toPayload]
  exact ofMembers_members p

end Problem

namespace Agent

/-- The agent with the value of a member. -/
def put (name : String) (a : Agent) (v : Value) : Option Agent :=
  match name with
  | "name" => v.text?.map fun s => { a with name := s }
  | "description" => v.optionalText?.map fun s => { a with description := s }
  | "version" => v.optionalText?.map fun s => { a with version := s }
  | _ => none

theorem shape_puts : shape.Puts put := by
  intro m hm value v
  simp only [shape, List.mem_cons, List.not_mem_nil, or_false] at hm
  rcases hm with rfl | rfl | rfl
  · exact reads_textField _ _ value v
  · exact reads_optionalField _ _ value v
  · exact reads_optionalField _ _ value v

theorem isExact_toPayload (a : Agent) : a.toPayload.isExact = true := by
  obtain ⟨name, description, version⟩ := a
  cases description <;> cases version <;> rfl

theorem encode_ok (a : Agent) : ∃ text, a.toPayload.encode = .ok text := by
  obtain ⟨name, description, version⟩ := a
  cases description <;> cases version <;> exact ⟨_, rfl⟩

theorem ofValue_plain (a : Agent) : shape.ofValue put a.toPayload.plain = some a := by
  obtain ⟨name, description, version⟩ := a
  cases description <;> cases version <;>
    simp [toPayload, textMember, optionalMember, Payload.plain, Payload.plainFields, Shape.ofValue, Shape.ofMembers,
      Shape.member?, Shape.missing?, shape, textField, optionalField, put]

theorem roundTrips : RoundTrips toPayload decode :=
  roundTrips_of_shape shape_puts isExact_toPayload encode_ok ofValue_plain

end Agent

namespace AgentList

/-- The list with the value of a member. -/
def put (name : String) (_ : AgentList) (v : Value) : Option AgentList :=
  match name with
  | "agents" => (v.listOf? (Agent.shape.ofValue Agent.put)).map AgentList.mk
  | _ => none

theorem shape_puts : shape.Puts put := by
  intro m hm value v
  simp only [shape, List.mem_cons, List.not_mem_nil, or_false] at hm
  subst hm
  intro fuel c rest h hrest
  have hlist := Json.Decode.reads_list (Json.Decode.reads_value Agent.shape_puts) v h hrest
  show Json.bare (Json.Decode.list (Json.Decode.record Agent.shape) c >>= _) = _
  rw [Json.bare_bind _ (g := fun p => some (⟨p.1⟩, p.2)) fun _ _ => rfl, hlist]
  show _ = ((v.listOf? _).map _).map _
  cases v.listOf? _ <;> rfl

theorem exactItems_agents (agents : List Agent) : Payload.exactItems (agents.map Agent.toPayload) = true := by
  induction agents with
  | nil => rfl
  | cons a agents ih => simp [Payload.exactItems, a.isExact_toPayload, ih]

theorem encodeItems_agents (agents : List Agent) :
    ∃ parts, Payload.encodeItems (agents.map Agent.toPayload) = .ok parts := by
  induction agents with
  | nil => exact ⟨[], rfl⟩
  | cons a agents ih =>
    obtain ⟨part, hpart⟩ := a.encode_ok
    obtain ⟨parts, hparts⟩ := ih
    refine ⟨part :: parts, ?_⟩
    rw [List.map_cons, Payload.encodeItems, hpart, ok_bind, hparts, ok_bind]

theorem mapM_agents (agents : List Agent) :
    (Payload.plainItems (agents.map Agent.toPayload)).mapM (Agent.shape.ofValue Agent.put) = some agents := by
  induction agents with
  | nil => rfl
  | cons a agents ih =>
    rw [List.map_cons, Payload.plainItems, List.mapM_cons, a.ofValue_plain, ih]
    rfl

theorem isExact_toPayload (l : AgentList) : l.toPayload.isExact = true := by
  simp [toPayload, Payload.isExact, Payload.exactFields, exactItems_agents]

theorem roundTrips : RoundTrips toPayload decode := by
  refine roundTrips_of_shape shape_puts isExact_toPayload ?_ ?_
  · intro l
    obtain ⟨parts, hparts⟩ := encodeItems_agents l.agents
    simp only [toPayload, Payload.encode, Payload.encodeFields, hparts]
    exact ⟨_, rfl⟩
  · intro l
    simp [toPayload, Payload.plain, Payload.plainFields, Shape.ofValue, Shape.ofMembers, Shape.member?, Shape.missing?,
      shape, put, Value.listOf?, mapM_agents]

end AgentList

namespace VersionInfo

/-- The version with the value of a member. -/
def put (name : String) (i : VersionInfo) (v : Value) : Option VersionInfo :=
  match name with
  | "version" => v.text?.map fun s => { i with version := s }
  | "go" => v.text?.map fun s => { i with compiler := s }
  | _ => none

theorem shape_puts : shape.Puts put := by
  intro m hm value v
  simp only [shape, List.mem_cons, List.not_mem_nil, or_false] at hm
  rcases hm with rfl | rfl <;> exact reads_textField _ _ value v

theorem roundTrips : RoundTrips toPayload decode := by
  refine roundTrips_of_shape shape_puts ?_ ?_ ?_
  · intro i
    rfl
  · intro i
    exact ⟨_, rfl⟩
  · intro i
    simp [toPayload, textMember, Payload.plain, Payload.plainFields, Shape.ofValue, Shape.ofMembers, Shape.member?,
      Shape.missing?, shape, textField, put]

end VersionInfo

/-- Reading undoes writing for everything that is sent: a problem, an agent, a list
of agents of any length and a version. -/
theorem wire_roundTrips :
    RoundTrips Problem.toPayload Problem.decode ∧ RoundTrips Agent.toPayload Agent.decode ∧
      RoundTrips AgentList.toPayload AgentList.decode ∧ RoundTrips VersionInfo.toPayload VersionInfo.decode :=
  ⟨Problem.roundTrips, Agent.roundTrips, AgentList.roundTrips, VersionInfo.roundTrips⟩

end AgentHost.Api
