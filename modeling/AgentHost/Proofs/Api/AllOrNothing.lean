import AgentHost.Proofs.Api.Problem
import AgentHost.Proofs.Json.Emitted
import AgentHost.Proofs.Json.Faults
/-!
# All or nothing

An answer has the whole of a payload in its body, or nothing of it. A payload with
a fault in any place is answered like every other that has one, and what was
written before the fault is thrown away.
-/

namespace AgentHost.Api

open Http (Status Response)
open Json (Payload Value EncodeError)

namespace Answer

/-- The response to whatever cannot be written. -/
def encodeFailure : Response :=
  ⟨.internalServerError, [("content-type", "application/json; charset=utf-8")],
    "\x7b\"type\":\"https://agnx.dev/problems/internal-error\",\"title\":\"Internal Server Error\",\"status\":500," ++
      "\"detail\":\"failed to encode response body\"\x7d"⟩

theorem encode_encodeProblem : encodeProblem.toPayload.encode = .ok encodeFailure.body.toList :=
  ok_of_toOption (by decide +kernel)

theorem json_error {status : Status} {payload : Payload} {e : EncodeError} (h : payload.encode = .error e) :
    json status payload = ⟨encodeFailure, [⟨"encode response", e.message⟩]⟩ := by
  have hfailure : jsonResponse .internalServerError (bodyOf encodeProblem.toPayload) = encodeFailure := by
    rw [bodyOf, encode_encodeProblem, jsonResponse, String.ofList_toList]
    rfl
  rw [json, h, hfailure]

/-- A response has the payload as it was written, or it is the one response to
whatever cannot be written. Which of them depends on whether the payload has a
fault, and the first one is logged. Either way the body is a complete JSON text. -/
theorem json_all_or_nothing (status : Status) (payload : Payload) :
    let answer := json status payload
    (match payload.faults with
      | [] =>
        payload.encode = .ok payload.emit.text ∧
          answer = ⟨⟨status, [("content-type", "application/json; charset=utf-8")], String.ofList payload.emit.text⟩, []⟩
      | fault :: _ =>
        payload.encode = .error fault ∧ payload.emit.fault = some fault ∧
          answer = ⟨encodeFailure, [⟨"encode response", fault.message⟩]⟩) ∧
      Problem.decode encodeFailure.body.toList = .ok encodeProblem ∧
      encodeProblem.status.toNat = encodeFailure.status.code ∧
      (payload.isExact = true → ∃ v, Value.parse answer.response.body.toList = some v) := by
  intro answer
  have hblames := payload.blames_encode
  have hwrites := payload.writes_emit
  have hproblem := Problem.decode_encode encodeProblem encode_encodeProblem
  cases hencode : payload.encode with
  | ok text =>
    rw [hencode] at hblames hwrites
    have hfaults : payload.faults = [] := hblames
    have hemit : payload.emit = .whole text := hwrites
    have hanswer : answer = ⟨jsonResponse status text, []⟩ := json_ok hencode
    rw [hfaults, hemit]
    refine ⟨⟨rfl, hanswer⟩, hproblem, rfl, fun hexact => ⟨payload.plain, ?_⟩⟩
    have hbody : answer.response.body.toList = text := by
      rw [hanswer]
      exact String.toList_ofList
    rw [hbody]
    exact Payload.parse_encode hexact hencode
  | error e =>
    rw [hencode] at hblames hwrites
    obtain ⟨rest, hfaults⟩ : ∃ rest, payload.faults = e :: rest := List.head?_eq_some_iff.1 hblames
    have hfault : payload.emit.fault = some e := hwrites
    have hanswer : answer = ⟨encodeFailure, [⟨"encode response", e.message⟩]⟩ := json_error hencode
    rw [hfaults]
    refine ⟨⟨rfl, hfault, hanswer⟩, hproblem, rfl, fun _ => ⟨.object encodeProblem.members, ?_⟩⟩
    rw [hanswer]
    exact Problem.parse_encode _ encode_encodeProblem

end Answer

end AgentHost.Api
