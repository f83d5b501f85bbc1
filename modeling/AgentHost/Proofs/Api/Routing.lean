import AgentHost.Api.Service
import AgentHost.Proofs.Api.RoundTrip
import AgentHost.Proofs.Config.Defaults
/-!
# Where a request goes

Four paths are served, each compared as a whole. What a request gets is decided
by whether its path is one of them, and by whether its method is `GET`, `HEAD` or
another. The limits on the answer do not matter: a listing is work, and no limit
ends that.
-/

namespace AgentHost.Api

open Http (Method Request Response Target Header)

/-- The paths that are served. -/
def served : List String := ["/livez", "/readyz", "/version", "/api/v1/agents"]

namespace Route

theorem path_mem_served (route : Route) : route.path ∈ served := by
  cases route <;> decide

theorem path_of_ofPath? {path : String} {route : Route} (h : ofPath? path = some route) : route.path = path := by
  simpa using List.find?_some h

theorem exists_path {path : String} (h : path ∈ served) : ∃ route : Route, path = route.path := by
  simp only [served, List.mem_cons, List.not_mem_nil, or_false] at h
  rcases h with rfl | rfl | rfl | rfl
  · exact ⟨.live, rfl⟩
  · exact ⟨.ready, rfl⟩
  · exact ⟨.version, rfl⟩
  · exact ⟨.agents, rfl⟩

theorem ofPath?_path (route : Route) : ofPath? route.path = some route := by
  cases route <;> decide

theorem ofPath?_eq_none_iff {path : String} : ofPath? path = none ↔ path ∉ served := by
  constructor
  · intro h hserved
    obtain ⟨route, rfl⟩ := exists_path hserved
    rw [ofPath?_path] at h
    cases h
  · intro h
    cases hroute : ofPath? path with
    | none => rfl
    | some route => exact absurd (path_of_ofPath? hroute ▸ route.path_mem_served) h

end Route

/-! ## Problems -/

/-- A problem with a status is answered under it and as it is. -/
theorem says_problem (p : Problem) (hleast : 100 ≤ p.status) (hgreatest : p.status ≤ 999) :
    (Answer.problem p).response.status.code = p.status.toNat ∧
      Problem.decode (Answer.problem p).response.body.toList = .ok p := by
  obtain ⟨text, htext⟩ := p.encode_ok
  have hcode : p.statusCode.code = p.status.toNat := by rw [p.code_statusCode, if_pos ⟨hleast, hgreatest⟩]
  have hanswer : Answer.problem p = ⟨Answer.jsonResponse p.statusCode text, []⟩ := by
    unfold Answer.problem
    simp only [hcode, UInt16.ofNat_toNat]
    exact Answer.json_ok htext
  rw [hanswer]
  refine ⟨hcode, ?_⟩
  show Problem.decode (String.ofList text).toList = _
  rw [String.toList_ofList]
  exact p.decode_encode htext

theorem Answer.headers_json (status : Http.Status) (payload : Json.Payload) :
    (Answer.json status payload).response.headers = [("content-type", Answer.jsonType)] := by
  unfold Answer.json
  split <;> rfl

namespace Router

theorem says_missing (path : String) :
    (Answer.problem (missing path)).response.status.code = 404 ∧
      Problem.decode (Answer.problem (missing path)).response.body.toList =
        .ok ⟨"https://agnx.dev/problems/not-found", "Not Found", 404, some ("no route for " ++ path), some path⟩ := by
  have hmissing : missing path =
      ⟨"https://agnx.dev/problems/not-found", "Not Found", 404, some ("no route for " ++ path), some path⟩ := by
    simp [missing, Problem.ofStatus, Problem.withDetail, Problem.withInstance, Problem.notFoundType,
      Http.Status.notFound]
  rw [hmissing]
  exact says_problem _ (show (100 : UInt16) ≤ 404 by decide) (show (404 : UInt16) ≤ 999 by decide)

theorem says_unsupported (m : Method) (path : String) :
    (Answer.problem (unsupported m path)).response.status.code = 405 ∧
      Problem.decode (Answer.problem (unsupported m path)).response.body.toList =
        .ok ⟨"https://agnx.dev/problems/method-not-allowed", "Method Not Allowed", 405,
          some (m.name ++ " is not supported for " ++ path), some path⟩ := by
  have hunsupported : unsupported m path = ⟨"https://agnx.dev/problems/method-not-allowed", "Method Not Allowed", 405,
      some (m.name ++ " is not supported for " ++ path), some path⟩ := by
    simp [unsupported, Problem.ofStatus, Problem.withDetail, Problem.withInstance, Problem.methodNotAllowedType,
      Http.Status.methodNotAllowed]
  rw [hunsupported]
  exact says_problem _ (show (100 : UInt16) ≤ 405 by decide) (show (405 : UInt16) ≤ 999 by decide)

/-! ## Content -/

/-- What the body at a served path says of the server. -/
def Says (r : Router) (path body : String) : Prop :=
  if path = "/version" then VersionInfo.decode body.toList = .ok ⟨r.build.version, r.build.compiler⟩
  else if path = "/api/v1/agents" then AgentList.decode body.toList = .ok ⟨r.catalog.agents⟩
  else body = "ok"

theorem content_says (r : Router) (route : Route) :
    (r.content route).response.status.code = 200 ∧ r.Says route.path (r.content route).response.body := by
  cases route with
  | live | ready => exact ⟨rfl, rfl⟩
  | version =>
    obtain ⟨text, htext, hdecode⟩ := VersionInfo.roundTrips.written ⟨r.build.version, r.build.compiler⟩
    rw [content, Answer.json_ok htext]
    refine ⟨rfl, ?_⟩
    show VersionInfo.decode (String.ofList text).toList = _
    rw [String.toList_ofList, hdecode]
  | agents =>
    obtain ⟨text, htext, hdecode⟩ := AgentList.roundTrips.written ⟨r.catalog.agents⟩
    rw [content, Answer.json_ok htext]
    refine ⟨rfl, ?_⟩
    show AgentList.decode (String.ofList text).toList = _
    rw [String.toList_ofList, hdecode]

/-! ## The limits -/

/-- A limit on the answer that is not zero does not change it. -/
theorem respond_of_limited (r : Router) (s : ServerSettings) (request : Request) (h : s.writeTimeout ≠ 0) :
    r.respond s request = r.answer request := by
  have hwrite : (limits s).write ≠ 0 := by
    have hset : s.writeTimeout.toNat ≠ 0 := fun hzero => h (UInt64.toNat_inj.1 hzero)
    simp only [limits]
    omega
  simp only [respond, serve, Deadline.Handler.run, if_neg hwrite, handler]
  -- The listing is work, and what comes of work is looked at however late it is.
  split <;> rfl

/-- A server with its defaults answers in the end what its routes say. -/
theorem respond_eq_answer (r : Router) (c : Config) (request : Request) :
    r.respond c.withDefaults.server request = r.answer request :=
  r.respond_of_limited _ request c.withDefaults_complete.writeTimeout

/-! ## Methods and paths -/

theorem isReading_get : isReading .get = true := by decide

theorem isReading_head : isReading .head = true := by decide

theorem get_ne_head : Method.get ≠ Method.head := by decide

theorem draft_missing (r : Router) {request : Request} (h : request.target.path ∉ served) :
    r.draft request = .problem (missing request.target.path) := by
  simp only [draft, Route.ofPath?_eq_none_iff.2 h]

theorem draft_reading (r : Router) {request : Request} (route : Route) (h : request.target.path = route.path)
    (hmethod : isReading request.method = true) : r.draft request = r.content route := by
  simp only [draft, h, route.ofPath?_path, hmethod, if_true]

theorem draft_unsupported (r : Router) {request : Request} (route : Route) (h : request.target.path = route.path)
    (hmethod : isReading request.method = false) :
    r.draft request = { Answer.problem (unsupported request.method route.path) with
      response := (Answer.problem (unsupported request.method route.path)).response.addHeader "allow" allowed } := by
  simp only [draft, h, route.ofPath?_path, hmethod, Bool.false_eq_true, if_false]

/-- What is drafted for `HEAD` is what is drafted for `GET`. -/
theorem draft_head (r : Router) (target : Target) (headers : List Header) :
    r.draft ⟨.head, target, headers⟩ = r.draft ⟨.get, target, headers⟩ := by
  cases h : Route.ofPath? target.path with
  | none => simp only [draft, h]
  | some route => simp only [draft, h, isReading_head, isReading_get, if_true]

/-- What is drafted for `GET` tells its type and nothing else. -/
theorem headers_draft_get (r : Router) (target : Target) (headers : List Header) :
    ∃ type, (r.draft ⟨.get, target, headers⟩).response.headers = [("content-type", type)] := by
  by_cases h : target.path ∈ served
  · obtain ⟨route, hroute⟩ := Route.exists_path h
    rw [r.draft_reading route hroute isReading_get]
    cases route with
    | live | ready => exact ⟨_, rfl⟩
    | version => exact ⟨_, Answer.headers_json _ _⟩
    | agents => exact ⟨_, Answer.headers_json _ _⟩
  · rw [r.draft_missing h]
    exact ⟨_, Answer.headers_json _ _⟩

theorem answer_of_ne_head (r : Router) (request : Request) (h : request.method ≠ .head) :
    (r.answer request).response = (r.draft request).response.withLength := by
  simp only [answer, if_neg h]

theorem answer_head (r : Router) (target : Target) (headers : List Header) :
    (r.answer ⟨.head, target, headers⟩).response =
      (r.answer ⟨.get, target, headers⟩).response.withoutBody := by
  rw [answer_of_ne_head r ⟨.get, target, headers⟩ get_ne_head, ← draft_head]
  rfl

theorem status_answer (r : Router) (request : Request) :
    (r.answer request).response.status = (r.draft request).response.status := by
  unfold answer
  simp only
  split <;> rfl

theorem answer_query (r : Router) (m : Method) (path : String) (query query' : Option String)
    (headers headers' : List Header) :
    r.answer ⟨m, ⟨path, query⟩, headers⟩ = r.answer ⟨m, ⟨path, query'⟩, headers'⟩ := rfl

theorem length_answer_get (r : Router) (target : Target) (headers : List Header) :
    (r.answer ⟨.get, target, headers⟩).response.header? "content-length" =
      some (toString (Text.Utf8.ofString (r.answer ⟨.get, target, headers⟩).response.body).length) := by
  rw [answer_of_ne_head r ⟨.get, target, headers⟩ get_ne_head]
  obtain ⟨type, htype⟩ := r.headers_draft_get target headers
  simp only [Response.header?, Response.withLength, Response.addHeader, htype]
  rfl

/-- What a request gets is decided by its method and its path, compared as a whole. A
served path has its content, for `GET`, and a problem for other methods; any other
path is a problem for every method. `HEAD` gets the head of what `GET` would get, and
the query never matters. -/
theorem respond_by_path (r : Router) (c : Config) (m : Method) (path : String) (query : Option String)
    (headers : List Header) :
    let ask (m : Method) (query : Option String) : Answer :=
      r.respond c.withDefaults.server ⟨m, ⟨path, query⟩, headers⟩
    let got : Response := (ask m query).response
    let full : Response := (ask .get query).response
    (path ∈ served → m = .get → got.status.code = 200 ∧ r.Says path got.body) ∧
    (path ∈ served → m ≠ .get → m ≠ .head → got.status.code = 405 ∧
      Problem.decode got.body.toList = .ok ⟨"https://agnx.dev/problems/method-not-allowed", "Method Not Allowed", 405,
        some (m.name ++ " is not supported for " ++ path), some path⟩) ∧
    (path ∉ served → got.status.code = 404 ∧
      (m ≠ .head → Problem.decode got.body.toList = .ok ⟨"https://agnx.dev/problems/not-found", "Not Found", 404,
        some ("no route for " ++ path), some path⟩)) ∧
    (m = .head → got.status = full.status ∧ got.headers = full.headers ∧ got.body = "" ∧
      full.header? "content-length" = some (toString (Text.Utf8.ofString full.body).length)) ∧
    ∀ query', ask m query' = ask m query := by
  intro ask got full
  have hask : ∀ m query, ask m query = r.answer ⟨m, ⟨path, query⟩, headers⟩ := fun m query => r.respond_eq_answer c _
  have hgot : got = (r.answer ⟨m, ⟨path, query⟩, headers⟩).response := congrArg Answer.response (hask m query)
  have hfull : full = (r.answer ⟨.get, ⟨path, query⟩, headers⟩).response := congrArg Answer.response (hask .get query)
  have hstatus : got.status = (r.draft ⟨m, ⟨path, query⟩, headers⟩).response.status := by
    rw [hgot]
    exact r.status_answer _
  have hbody : m ≠ .head → got.body = (r.draft ⟨m, ⟨path, query⟩, headers⟩).response.body := by
    intro hhead
    rw [hgot, r.answer_of_ne_head ⟨m, ⟨path, query⟩, headers⟩ hhead]
    rfl
  refine ⟨?_, ?_, ?_, ?_, ?_⟩
  · rintro hserved rfl
    obtain ⟨route, rfl⟩ := Route.exists_path hserved
    rw [hstatus, hbody get_ne_head, r.draft_reading route rfl isReading_get]
    exact r.content_says route
  · intro hserved hget hhead
    obtain ⟨route, rfl⟩ := Route.exists_path hserved
    have hmethod : isReading m = false := by simp [isReading, hget, hhead]
    rw [hstatus, hbody hhead, r.draft_unsupported route rfl hmethod]
    exact says_unsupported m route.path
  · intro hserved
    refine ⟨?_, fun hhead => ?_⟩
    · rw [hstatus, r.draft_missing hserved]
      exact (says_missing path).1
    · rw [hbody hhead, r.draft_missing hserved]
      exact (says_missing path).2
  · rintro rfl
    have hhead := r.answer_head ⟨path, query⟩ headers
    rw [← hgot, ← hfull] at hhead
    refine ⟨?_, ?_, ?_, ?_⟩
    · rw [hhead]; rfl
    · rw [hhead]; rfl
    · rw [hhead]; rfl
    · rw [hfull]
      exact r.length_answer_get _ _
  · intro query'
    rw [hask, hask]
    exact r.answer_query ..

end Router

end AgentHost.Api
