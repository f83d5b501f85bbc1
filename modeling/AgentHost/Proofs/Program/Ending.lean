import AgentHost.Program.World
/-!
# How a run ends

The log goes to the standard output and changes nothing else, so a run is looked
at without its output. What is left of a run that serves is decided by whether the
address can be bound, and by what comes of serving.
-/

namespace AgentHost

namespace Transcript

/-- The transcript without what was written to the standard output. -/
def muted (t : Transcript) : Transcript := { t with output := "" }

/-- The transcript with a complaint in front. -/
def complaining (text : String) (t : Transcript) : Transcript := { t with errors := text ++ t.errors }

/-- The transcript with an address that was to be bound before. -/
def binding (address : String) (t : Transcript) : Transcript := { t with binds := address :: t.binds }

end Transcript

/-- What comes of serving where the server was asked to stop. -/
def Drained.result (grace : Duration) : Drained → Serving.Result
  | .ended failure => Serving.endedDrained failure
  | .timedOut => .failed (.shutdownTimeout grace)

/-- What happens between the caller and the task until the server has stopped. -/
def Drained.events : Drained → List Serving.Event
  | .ended none => [.observe, .close, .join]
  | .ended (some failure) => [.fail (some failure), .join]
  | .timedOut => [.elapse]

namespace World

/-- What comes of serving, if it ever ends. -/
def served (w : World) (grace : Duration) : Option Serving.Result :=
  match w.wake with
  | none => none
  | some (.ended failure) => some (Serving.endedEarly failure)
  | some (.signal _) => some (w.drained.result grace)

/-- What happens between the caller and the task. -/
def events (w : World) : List Serving.Event :=
  match w.wake with
  | none => []
  | some (.ended failure) => [.fail failure, .join]
  | some (.signal _) => .trigger :: .hear :: w.drained.events

/-- What comes of serving is what the caller of the task returns. -/
theorem served_eq_result (w : World) (grace : Duration) :
    w.served grace = ((Serving.State.start false).run grace w.events).caller.result? := by
  unfold served events
  cases w.wake with
  | none => rfl
  | some wake =>
    cases wake with
    | ended failure => rfl
    | signal signal => rcases w.drained with (_ | failure) | _ <;> rfl

/-- Serving ends well where the server is asked to stop and does. -/
theorem served_eq_done_iff (w : World) (grace : Duration) :
    w.served grace = some .done ↔ (∃ signal, w.wake = some (.signal signal)) ∧ w.drained = .ended none := by
  unfold served
  rcases w.wake with _ | (signal | failure)
  · simp
  · rcases w.drained with (_ | failure) | _ <;> simp [Drained.result, Serving.endedDrained]
  · cases failure <;> simp [Serving.endedEarly]

end World

namespace Program

/-- The end of a run that fails. -/
def failed (e : StartError) : Transcript := ⟨"", "error: " ++ e.message ++ "\n", [], [], some 1⟩

theorem failed_config (e : Config.LoadError) :
    failed (.config e) = ⟨"", "error: load config: " ++ e.message ++ "\n", [], [], some 1⟩ := by
  have hmessage : StartError.message (.config e) = "load config: " ++ e.message := rfl
  have hfront : "error: load config: " = "error: " ++ "load config: " := by decide +kernel
  rw [failed, hmessage, hfront]
  simp only [String.append_assoc]

theorem failed_bind (address : String) (cause : IoError) :
    failed (.server (.bind address cause)) =
      ⟨"", "error: bind failed on " ++ address ++ ": " ++ cause.message ++ "\n", [], [], some 1⟩ := by
  have hmessage : StartError.message (.server (.bind address cause)) =
    "bind failed on " ++ address ++ ": " ++ cause.message := rfl
  have hfront : "error: bind failed on " = "error: " ++ "bind failed on " := by decide +kernel
  rw [failed, hmessage, hfront]
  simp only [String.append_assoc]

/-- The end of a run that serves. -/
def ended : Option Serving.Result → Transcript
  | none => .ending none
  | some .done => .ending (some 0)
  | some (.failed e) => failed (.server e)

theorem runIn_fail (w : World) (e : StartError) : (fail e).runIn w = failed e := by
  simp [fail, failed, runIn, Transcript.ending]

theorem muted_complain (w : World) (text : String) (next : Program) :
    ((complain text next).runIn w).muted = (next.runIn w).muted.complaining text := rfl

theorem muted_bind (w : World) (settings : ServerSettings) (next : Except IoError Endpoint → Program) :
    ((bind settings next).runIn w).muted =
      ((next (w.bind settings)).runIn w).muted.binding (Server.address settings) := rfl

/-- The log is not seen behind the standard output. -/
theorem muted_write (w : World) (l : Logger) (entry : Log.Entry) (next : Program) :
    ((l.write entry next).runIn w).muted = (next.runIn w).muted := by
  unfold Logger.write
  split <;> rfl

theorem muted_finish (w : World) (l : Logger) (result : Serving.Result) :
    ((finish l result).runIn w).muted = ended (some result) := by
  cases result with
  | failed e =>
    rw [finish, runIn_fail]
    rfl
  | done =>
    rw [finish, muted_write]
    rfl

theorem muted_stop (w : World) (l : Logger) (grace : Duration) :
    ((stop l grace).runIn w).muted = ended (some (w.drained.result grace)) := by
  simp only [stop, runIn]
  rcases w.drained with (_ | failure) | _
  · simp only [muted_write, muted_finish, Drained.result]
  · simp only [muted_finish, Drained.result]
  · simp only [muted_write, muted_finish, Drained.result]

/-- A server that serves ends as serving does. -/
theorem muted_serving (w : World) (l : Logger) (s : Server) (endpoint : Endpoint) :
    ((serving l s endpoint).runIn w).muted = ended (w.served s.grace) := by
  simp only [serving, muted_write, runIn, World.served]
  cases w.wake with
  | none => rfl
  | some wake =>
    cases wake with
    | ended failure => exact muted_finish ..
    | signal signal => simp only [muted_write, muted_stop]

/-- What comes of starting a server: it fails where its address cannot be bound, and serves else. -/
def started (w : World) (s : Server) : Transcript :=
  match w.bind s.config.server with
  | .error cause => failed (.server (.bind (Server.address s.config.server) cause))
  | .ok _ => ended (w.served s.grace)

theorem started_of_error {w : World} {s : Server} {cause : IoError} (h : w.bind s.config.server = .error cause) :
    started w s = failed (.server (.bind (Server.address s.config.server) cause)) := by
  rw [started, h]

theorem started_of_ok {w : World} {s : Server} {endpoint : Endpoint} (h : w.bind s.config.server = .ok endpoint) :
    started w s = ended (w.served s.grace) := by
  rw [started, h]

/-- Behind the bound address nothing more is read or bound. -/
theorem started_eq (w : World) (s : Server) : started w s = ⟨"", (started w s).errors, [], [], (started w s).code⟩ := by
  unfold started
  split
  · rfl
  · rcases w.served s.grace with _ | _ | _ <;> rfl

theorem code_started_eq_zero_iff (w : World) (s : Server) :
    (started w s).code = some 0 ↔
      (∃ endpoint, w.bind s.config.server = .ok endpoint) ∧ w.served s.grace = some .done := by
  unfold started
  cases w.bind s.config.server with
  | error cause => simp [failed]
  | ok endpoint => rcases w.served s.grace with _ | _ | _ <;> simp [ended, failed, Transcript.ending]

theorem muted_start (w : World) (l : Logger) (s : Server) :
    ((start l s).runIn w).muted = (started w s).binding (Server.address s.config.server) := by
  rw [start, muted_bind, started]
  congr 1
  cases w.bind s.config.server with
  | error cause =>
    simp only [runIn_fail]
    rfl
  | ok endpoint => exact muted_serving ..

/-- What the filter of the log complains about, as it is written. -/
def complaints (s : Setting) (level : String) : String :=
  (filterOf s.filter level).2.foldr (fun complaint text => complaint.message ++ "\n" ++ text) ""

theorem complaining_empty (t : Transcript) : t.complaining "" = t := by
  rw [Transcript.complaining, String.empty_append]

theorem complaining_append (t : Transcript) (a b : String) :
    t.complaining (a ++ b) = (t.complaining b).complaining a := by
  simp only [Transcript.complaining, String.append_assoc]

/-- Starting with a configuration starts a server for it. What there is to complain about comes first. -/
theorem muted_configured (s : Setting) (c : Config) (w : World) :
    ((configured s c).runIn w).muted =
      ((started w (Server.ofConfig c)).binding (Server.address c.server)).complaining (complaints s c.logging.level) := by
  unfold configured complaints
  generalize filterOf s.filter c.logging.level = chosen
  obtain ⟨filter, found⟩ := chosen
  simp only
  induction found with
  | nil =>
    rw [List.foldr_nil, List.foldr_nil, muted_write, muted_start, complaining_empty]
    rfl
  | cons complaint found ih => rw [List.foldr_cons, List.foldr_cons, muted_complain, ih, ← complaining_append]

end Program

end AgentHost
