import AgentHost.Proofs.Api.Routing
import AgentHost.Proofs.Json.Members
/-!
# The listing of the agents

Whatever the catalog knows is in the answer, read as plain JSON: one object for each
agent, in the order of the catalog, with what is known of the agent and nothing else.
-/

namespace AgentHost.Api

open Http (Header)
open Json (Payload Value)
open Json.Value (valuesOf)

/-! ## One agent -/

namespace Problem

theorem valuesOf_plainText (name : String) (o : Option String) :
    valuesOf name (plainText name o) = o.toList.map fun s => .string s.toList := by
  cases o with
  | none => rfl
  | some s => exact Value.valuesOf_cons_self name _ []

theorem valuesOf_plainText_ne {name other : String} (h : other.toList ≠ name.toList) (o : Option String) :
    valuesOf name (plainText other o) = [] := by
  cases o with
  | none => rfl
  | some s => exact Value.valuesOf_cons_ne h _ []

theorem name_of_plainText {name : String} {o : Option String} {m : List Char × Value} (h : m ∈ plainText name o) :
    m.1 = name.toList := by
  cases o with
  | none => cases h
  | some s => rw [List.mem_singleton.1 h]

end Problem

namespace Agent

open Problem (plainText valuesOf_plainText valuesOf_plainText_ne name_of_plainText)

/-- The members say just what is known of the agent: its name, and its description and
version where it has them. -/
structure ShownBy (a : Agent) (ms : List (List Char × Value)) : Prop where
  name : valuesOf "name" ms = [.string a.name.toList]
  description : valuesOf "description" ms = a.description.toList.map fun s => .string s.toList
  version : valuesOf "version" ms = a.version.toList.map fun s => .string s.toList
  nothingElse : ∀ m ∈ ms, m.1 = "name".toList ∨ m.1 = "description".toList ∨ m.1 = "version".toList

/-- The members that an agent is written as. -/
def members (a : Agent) : List (List Char × Value) :=
  plainText "name" (some a.name) ++ plainText "description" a.description ++ plainText "version" a.version

theorem plain_toPayload (a : Agent) : a.toPayload.plain = .object a.members := by
  obtain ⟨name, description, version⟩ := a
  cases description <;> cases version <;> rfl

theorem shownBy_members (a : Agent) : a.ShownBy a.members where
  name := by
    rw [members, Value.valuesOf_append, Value.valuesOf_append, valuesOf_plainText,
      valuesOf_plainText_ne (by decide), valuesOf_plainText_ne (by decide), List.append_nil, List.append_nil]
    rfl
  description := by
    rw [members, Value.valuesOf_append, Value.valuesOf_append, valuesOf_plainText,
      valuesOf_plainText_ne (by decide), valuesOf_plainText_ne (by decide), List.nil_append, List.append_nil]
  version := by
    rw [members, Value.valuesOf_append, Value.valuesOf_append, valuesOf_plainText,
      valuesOf_plainText_ne (by decide), valuesOf_plainText_ne (by decide), List.nil_append, List.nil_append]
  nothingElse m hm := by
    rcases List.mem_append.1 hm with hfront | hversion
    · rcases List.mem_append.1 hfront with hname | hdescription
      · exact .inl (name_of_plainText hname)
      · exact .inr (.inl (name_of_plainText hdescription))
    · exact .inr (.inr (name_of_plainText hversion))

end Agent

/-! ## All agents -/

namespace AgentList

theorem plainItems_agents (agents : List Agent) :
    Payload.plainItems (agents.map Agent.toPayload) = agents.map fun a => .object a.members := by
  induction agents with
  | nil => rfl
  | cons a agents ih => rw [List.map_cons, Payload.plainItems, ih, a.plain_toPayload, List.map_cons]

theorem plain_toPayload (l : AgentList) :
    l.toPayload.plain = .object [("agents".toList, .array (l.agents.map fun a => .object a.members))] := by
  rw [← plainItems_agents]
  rfl

end AgentList

namespace Router

/-- Asking for the agents gets all that the catalog lists, one after the other, as
plain JSON, and nothing is logged. -/
theorem listing_complete (r : Router) (c : Config) (query : Option String) (headers : List Header) :
    let answer := r.respond c.withDefaults.server ⟨.get, ⟨"/api/v1/agents", query⟩, headers⟩
    answer.response.status.code = 200 ∧
    answer.response.header? "content-type" = some "application/json; charset=utf-8" ∧
    answer.log = [] ∧
    ∃ vs, Value.parse answer.response.body.toList = some (.object [("agents".toList, .array vs)]) ∧
      vs.length = r.catalog.agents.length ∧
      ∀ (i : Nat) (a : Agent), r.catalog.agents[i]? = some a →
        ∃ ms, vs[i]? = some (.object ms) ∧ a.ShownBy ms := by
  intro answer
  obtain ⟨text, htext, -⟩ := AgentList.roundTrips.written ⟨r.catalog.agents⟩
  -- Neither the limits nor the query matter, so the answer is what the route has to say.
  have hanswer : answer = r.answer ⟨.get, ⟨"/api/v1/agents", query⟩, headers⟩ := r.respond_eq_answer c _
  have hdraft : r.draft ⟨.get, ⟨"/api/v1/agents", query⟩, headers⟩ = ⟨Answer.jsonResponse .ok text, []⟩ :=
    (r.draft_reading .agents rfl isReading_get).trans (Answer.json_ok htext)
  have hresponse : answer.response = (Answer.jsonResponse .ok text).withLength := by
    rw [hanswer, answer_of_ne_head r _ get_ne_head, hdraft]
  refine ⟨?_, ?_, ?_, r.catalog.agents.map fun a => .object a.members, ?_, List.length_map _, ?_⟩
  · rw [hresponse]
    rfl
  · rw [hresponse]
    rfl
  · rw [hanswer]
    exact congrArg Answer.log hdraft
  · have hbody : answer.response.body.toList = text := by
      rw [hresponse]
      exact String.toList_ofList
    rw [hbody, Payload.parse_encode (AgentList.isExact_toPayload _) htext, AgentList.plain_toPayload]
  · intro i a hlisted
    exact ⟨a.members, by rw [List.getElem?_map, hlisted, Option.map_some], a.shownBy_members⟩

end Router

end AgentHost.Api
