import AgentHost.Proofs.Program.Layers
/-!
# What clients get from a run

A run answers requests while it serves, and only then. `responses_launch_loaded`
says with what: with the responses of the router under the limits of the
configuration that the server was started with. `mem_responses_launch` says which
runs come so far.
-/

namespace AgentHost.Program

open Http (Request Response)

/-- What a client gets for a request to a server with some settings. -/
def reply (w : World) (router : Api.Router) (settings : ServerSettings) (request : Request) : Option Response :=
  match w.bind settings with
  | .error _ => none
  | .ok _ => if w.isReachable then some (router.respond settings request).response else none

theorem reply_eq_some_iff {w : World} {router : Api.Router} {settings : ServerSettings} {request : Request} {r : Response} :
    reply w router settings request = some r ↔
      w.isReachable = true ∧ (∃ endpoint, w.bind settings = .ok endpoint) ∧
        (router.respond settings request).response = r := by
  unfold reply
  cases w.bind settings with
  | error cause => simp
  | ok endpoint => simp

section
variable (w : World) (router : Api.Router) (requests : List Request)

theorem responses_write (l : Logger) (entry : Log.Entry) (next : Program) :
    (l.write entry next).responses w router requests = next.responses w router requests := by
  unfold Logger.write
  split <;> rfl

/-- A server answers once its address is bound. -/
theorem responses_start (l : Logger) (s : Server) :
    (start l s).responses w router requests = requests.map (reply w router s.config.server) := by
  simp only [start, responses]
  unfold reply
  cases w.bind s.config.server with
  | error cause => rfl
  | ok endpoint => exact responses_write ..

theorem responses_configured (s : Setting) (c : Config) :
    (configured s c).responses w router requests = requests.map (reply w router c.server) := by
  unfold configured
  generalize filterOf s.filter c.logging.level = chosen
  obtain ⟨filter, found⟩ := chosen
  simp only
  -- Complaints about the filter are written first, and nobody is answered meanwhile.
  induction found with
  | nil =>
    rw [List.foldr_nil, responses_write, responses_start]
    rfl
  | cons complaint found ih => exact ih

end

/-! ## The whole run -/

variable {s : Setting} {w : World} {router : Api.Router} {requests : List Request}

/-- Nobody is answered before the configuration is there. -/
theorem responses_launch {q : CommandLine.Request}
    (hargs : CommandLine.parse (CommandLine.normalize s.args) = .ok q) (hversion : q.version = false) :
    (launch s).responses w router requests =
      (loaded s q.port (Config.load w.files q.config)).responses w router requests := by
  obtain ⟨-, hlaunch⟩ | ⟨path, next, -, hlaunch, hnext⟩ := launch_reads w hargs hversion
  · rw [hlaunch]
  · rw [hlaunch, responses, hnext]

/-- A run with a configuration answers under the limits of that configuration. -/
theorem responses_launch_loaded {q : CommandLine.Request} {c : Config}
    (hargs : CommandLine.parse (CommandLine.normalize s.args) = .ok q) (hversion : q.version = false)
    (hload : Config.load w.files q.config = .ok c) :
    (launch s).responses w router requests = requests.map (reply w router (withPort q.port c).server) := by
  rw [responses_launch hargs hversion, hload]
  exact responses_configured ..

/-- A run that does not come to a configuration answers nothing. -/
theorem responses_launch_unloaded
    (h : ∀ q c, CommandLine.parse (CommandLine.normalize s.args) = .ok q → q.version = false →
      Config.load w.files q.config ≠ .ok c) :
    (launch s).responses w router requests = requests.map fun _ => none := by
  cases hargs : CommandLine.parse (CommandLine.normalize s.args) with
  | error refusal =>
    simp only [launch, hargs]
    split <;> rfl
  | ok q =>
    cases hversion : q.version with
    | true => simp [launch, hargs, perform, hversion, responses]
    | false =>
      rw [responses_launch hargs hversion]
      cases hload : Config.load w.files q.config with
      | error e => rfl
      | ok c => exact absurd hload (h q c hargs hversion)

/-- Clients get a response from the runs that come to serve, if they get there at all. It
is what the router answers to one of the requests, under the configured limits. -/
theorem mem_responses_launch {r : Response} :
    some r ∈ (launch s).responses w router requests ↔
      w.isReachable = true ∧ ∃ q c, CommandLine.parse (CommandLine.normalize s.args) = .ok q ∧ q.version = false ∧
        Config.load w.files q.config = .ok c ∧ (∃ endpoint, w.bind (withPort q.port c).server = .ok endpoint) ∧
        ∃ request ∈ requests, (router.respond (withPort q.port c).server request).response = r := by
  constructor
  · intro hmem
    by_cases h : ∃ q c, CommandLine.parse (CommandLine.normalize s.args) = .ok q ∧ q.version = false ∧
        Config.load w.files q.config = .ok c
    · obtain ⟨q, c, hargs, hversion, hload⟩ := h
      rw [responses_launch_loaded hargs hversion hload, List.mem_map] at hmem
      obtain ⟨request, hrequest, hreply⟩ := hmem
      obtain ⟨hreach, hbind, hr⟩ := reply_eq_some_iff.1 hreply
      exact ⟨hreach, q, c, hargs, hversion, hload, hbind, request, hrequest, hr⟩
    · rw [responses_launch_unloaded fun q c hargs hversion hload => h ⟨q, c, hargs, hversion, hload⟩] at hmem
      simp at hmem
  · rintro ⟨hreach, q, c, hargs, hversion, hload, hbind, request, hrequest, hr⟩
    rw [responses_launch_loaded hargs hversion hload, List.mem_map]
    exact ⟨request, hrequest, reply_eq_some_iff.2 ⟨hreach, hbind, hr⟩⟩

end AgentHost.Program
