import AgentHost.Proofs.Api.AllOrNothing
import AgentHost.Proofs.Api.Routing
/-!
# How failures are told

A failure is told as a problem with the type of JSON: no route, no such method, a
payload that cannot be written. Only where the limit on the answer is met the
response is not of this form. It has no body and no type then, whatever the
handler is and whoever asks.
-/

namespace AgentHost.Api

open Http (Method Request Response)
open Deadline (Body Handler Outcome)
open Json (Payload)

/-- The response tells of a failure as a problem with its status. -/
structure Uniform (m : Method) (response : Response) : Prop where
  type : response.header? "content-type" = some "application/json; charset=utf-8"
  body : m ≠ .head → ∃ p, Problem.decode response.body.toList = .ok p ∧ p.status.toNat = response.status.code

/-! ## Problems -/

theorem Answer.uniform_encodeFailure (m : Method) : Uniform m encodeFailure where
  type := rfl
  body _ := ⟨encodeProblem, Problem.decode_encode _ encode_encodeProblem, rfl⟩

theorem headers_problem (p : Problem) : (Answer.problem p).response.headers = [("content-type", Answer.jsonType)] :=
  Answer.headers_json _ _

namespace Router

/-- A draft of a failure has the type of JSON in front and a problem with its status in its body. -/
theorem draft_failure (r : Router) {request : Request} (h : 400 ≤ (r.draft request).response.status.code) :
    (∃ rest, (r.draft request).response.headers = ("content-type", Answer.jsonType) :: rest) ∧
      ∃ p, Problem.decode (r.draft request).response.body.toList = .ok p ∧
        p.status.toNat = (r.draft request).response.status.code := by
  by_cases hserved : request.target.path ∈ served
  · obtain ⟨route, hroute⟩ := Route.exists_path hserved
    cases hmethod : isReading request.method with
    | true =>
      -- What a route has to say is no failure.
      have hcode : (r.draft request).response.status.code = 200 := by
        rw [r.draft_reading route hroute hmethod]
        exact (r.content_says route).1
      omega
    | false =>
      obtain ⟨hcode, hbody⟩ := says_unsupported request.method route.path
      rw [r.draft_unsupported route hroute hmethod]
      exact ⟨⟨_, congrArg (· ++ [("allow", allowed)]) (headers_problem _)⟩, _, hbody, hcode.symm⟩
  · obtain ⟨hcode, hbody⟩ := says_missing request.target.path
    rw [r.draft_missing hserved]
    exact ⟨⟨[], headers_problem _⟩, _, hbody, hcode.symm⟩

theorem headers_answer (r : Router) (request : Request) :
    (r.answer request).response.headers = (r.draft request).response.withLength.headers := by
  unfold answer
  simp only
  split <;> rfl

theorem uniform_answer (r : Router) (request : Request) (h : 400 ≤ (r.answer request).response.status.code) :
    Uniform request.method (r.answer request).response := by
  rw [r.status_answer] at h
  obtain ⟨⟨rest, hheaders⟩, p, hbody, hcode⟩ := r.draft_failure h
  refine ⟨?_, fun hhead => ⟨p, ?_, ?_⟩⟩
  · rw [Response.header?, r.headers_answer, Response.withLength, Response.addHeader, hheaders]
    rfl
  · rw [r.answer_of_ne_head request hhead]
    exact hbody
  · rw [r.status_answer]
    exact hcode

end Router

/-! ## The limit on the answer -/

theorem timedOut_eq : timedOut = ⟨.requestTimeout, [("content-length", "0")], ""⟩ := by
  decide +kernel

theorem not_uniform_timedOut (m : Method) : ¬ Uniform m timedOut := by
  intro h
  have htype := h.type
  rw [timedOut_eq] at htype
  cases htype

/-- Every failure that is not told by the handler is told as a problem, but for one:
where the limit on the answer is met the client gets a bare 408. That answer takes
the place of whatever the handler would have said; any other passes unchanged. -/
theorem failures_uniform_unless_late (s : ServerSettings) (r : Router) (request : Request) (m : Method)
    (status : Http.Status) (payload : Payload) (h : Handler Answer) (body : Body) :
    let got : Response := (r.respond s request).response
    let failed : Response := (Answer.json status payload).response
    let outcome : Outcome Answer := h.run (limits s) body
    (400 ≤ got.status.code → (Uniform request.method got ↔ s.writeTimeout ≠ 0)) ∧
    (payload.faults ≠ [] → failed.status.code = 500 ∧ Uniform m failed) ∧
    match outcome.answer? with
    | some answer => received outcome = answer
    | none => received outcome = ⟨⟨.requestTimeout, [("content-length", "0")], ""⟩, []⟩ ∧
        ¬ Uniform m (received outcome).response := by
  intro got failed outcome
  refine ⟨fun hfailure => ?_, fun hfaults => ?_, ?_⟩
  · by_cases hlimit : s.writeTimeout = 0
    · have hgot : got = timedOut := by
        simp [got, Router.respond, Router.serve, Handler.run, limits, hlimit, received, Outcome.late]
      rw [hgot]
      exact iff_of_false (not_uniform_timedOut _) (not_not_intro hlimit)
    · have hgot : got = (r.answer request).response :=
        congrArg Answer.response (r.respond_of_limited s request hlimit)
      rw [hgot] at hfailure ⊢
      exact iff_of_true (r.uniform_answer request hfailure) hlimit
  · obtain ⟨e, hencode⟩ : ∃ e, payload.encode = .error e := by
      have hblames := payload.blames_encode
      cases hencode : payload.encode with
      | ok text =>
        rw [hencode] at hblames
        exact absurd hblames hfaults
      | error e => exact ⟨e, rfl⟩
    have hfailed : failed = Answer.encodeFailure := congrArg Answer.response (Answer.json_error hencode)
    rw [hfailed]
    exact ⟨rfl, Answer.uniform_encodeFailure m⟩
  · cases hanswer : outcome.answer? with
    | some answer => simp only [received, hanswer, Option.getD_some]
    | none =>
      have hlate : received outcome = ⟨timedOut, []⟩ := by rw [received, hanswer, Option.getD_none]
      rw [hlate]
      exact ⟨congrArg (Answer.mk · []) timedOut_eq, not_uniform_timedOut m⟩

/-- Under a limit of one second, the answer to an upload that takes a second is a failure and no problem. -/
theorem late_upload_not_uniform :
    let s : ServerSettings := ⟨"127.0.0.1", 8080, 30, 1⟩
    let got : Response := (received ((echo 1000).run (limits s) .spent)).response
    400 ≤ got.status.code ∧ ¬ Uniform ⟨"POST"⟩ got := by
  intro s got
  have hgot : got = timedOut := by decide +kernel
  rw [hgot]
  exact ⟨by decide, not_uniform_timedOut _⟩

end AgentHost.Api
