import AgentHost.Api.Router
import AgentHost.CommandLine.Parse
import AgentHost.Config.Load
import AgentHost.Log.Filter
import AgentHost.Network
import AgentHost.Server
import AgentHost.Serving.Handoff
/-!
# The program

A `Program` is what is done, step by step, up to an exit code. Where the world has
a say, what is done next depends on what it says. `launch` is the whole program:
it reads its arguments, then its configuration, then binds its address, and then
serves. The first of these that fails ends it.
-/

namespace AgentHost

open Text (Bytes)

/-- A signal to stop. -/
inductive StopSignal where
  | terminate
  | interrupt
  deriving DecidableEq, Repr

/-- The name of a signal. -/
def StopSignal.name : StopSignal → String
  | .terminate => "SIGTERM"
  | .interrupt => "SIGINT"

/-- What ends the wait of a server. -/
inductive Wake where
  | signal (s : StopSignal)
  /-- The task that serves has ended. -/
  | ended (failure : Option Serving.Failure)
  deriving DecidableEq, Repr

/-- What comes of draining a server. -/
inductive Drained where
  | ended (failure : Option Serving.Failure)
  | timedOut
  deriving DecidableEq, Repr

/-- What is done, step by step. -/
inductive Program where
  | exit (code : UInt8)
  /-- Writes to the standard output. -/
  | print (text : String) (next : Program)
  /-- Writes to the standard error. -/
  | complain (text : String) (next : Program)
  /-- Writes an entry of the log with the time. -/
  | log (format : LogFormat) (entry : Log.Entry) (next : Program)
  | read (path : Path) (next : Except IoError Bytes → Program)
  | bind (settings : ServerSettings) (next : Except IoError Endpoint → Program)
  /-- Serves until something happens. -/
  | serve (settings : ServerSettings) (next : Wake → Program)
  /-- Waits for the requests in flight, but no longer than that. -/
  | drain (grace : Duration) (next : Drained → Program)

namespace Program

/-- What the program knows before it starts. -/
structure Setting where
  build : Api.Build
  /-- The filter of the log that stands in the environment. -/
  filter : Option String
  args : List Bytes

/-- How the log is written. -/
structure Logger where
  filter : Log.Filter
  format : LogFormat

/-- Writes an entry if it is let through. -/
def Logger.write (l : Logger) (entry : Log.Entry) (next : Program) : Program :=
  if l.filter.lets entry then .log l.format entry next else next

/-- Ends with a failure. -/
def fail (e : StartError) : Program :=
  .complain ("error: " ++ e.message ++ "\n") (.exit 1)

/-! ## Serving -/

/-- What the program answers requests with. It knows no agents. -/
def router (build : Api.Build) : Api.Router := ⟨build, .empty⟩

/-- The part of the program that starts everything. -/
def mainSource : String := "agnx"

/-- The part of the program that serves. -/
def serverSource : String := "agnx_api::server"

/-- The part of the program that hears signals. -/
def shutdownSource : String := "agnx_api::shutdown"

/-- The entry on a configuration. -/
def configEntry (c : Config) : Log.Entry :=
  .info mainSource "configuration loaded" [
    ("host", .text c.server.host),
    ("port", .number c.server.port.toNat),
    ("read_timeout_secs", .number c.server.readTimeout.toNat),
    ("write_timeout_secs", .number c.server.writeTimeout.toNat),
    ("data_dir", .shown c.dataDir.lossy),
    ("agents_dir", .shown c.agentsDir.lossy)]

/-- The entry on an address that is bound. -/
def boundEntry (e : Endpoint) : Log.Entry :=
  .info serverSource "starting server" [("local_addr", .shown e.shown)]

/-- The entry on a signal. -/
def signalEntry (s : StopSignal) : Log.Entry :=
  .info shutdownSource ("received " ++ s.name ++ ", initiating graceful shutdown") []

/-- The entry on a server that did not stop in time. -/
def abortEntry (grace : Duration) : Log.Entry :=
  ⟨.warn, serverSource, "graceful shutdown timed out, serving task aborted",
    [("grace_secs", .number grace.seconds)]⟩

/-- Ends as serving did. -/
def finish (l : Logger) : Serving.Result → Program
  | .failed e => fail (.server e)
  | .done => l.write (.info mainSource "agnx shutdown complete" []) (.exit 0)

/-- Waits for the requests in flight. -/
def stop (l : Logger) (grace : Duration) : Program :=
  .drain grace fun
    | .ended (some failure) => finish l (Serving.endedDrained (some failure))
    | .ended none =>
      l.write (.info serverSource "server stopped" []) (finish l (Serving.endedDrained none))
    | .timedOut => l.write (abortEntry grace) (finish l (.failed (.shutdownTimeout grace)))

/-- Serves on an address that is bound. -/
def serving (l : Logger) (s : Server) (endpoint : Endpoint) : Program :=
  l.write (boundEntry endpoint) <| .serve s.config.server fun
    | .ended failure => finish l (Serving.endedEarly failure)
    | .signal signal =>
      l.write (signalEntry signal) <|
        l.write (.info serverSource "shutting down server" []) (stop l s.grace)

/-- Binds the address of a server and serves. -/
def start (l : Logger) (s : Server) : Program :=
  .bind s.config.server fun
    | .error cause => fail (.server (.bind (Server.address s.config.server) cause))
    | .ok endpoint => serving l s endpoint

/-! ## Starting -/

/-- The filter of the log: the one in the environment, if that is one, or else
what is good of the configured one. -/
def filterOf (inEnvironment : Option String) (level : String) : Log.Filter × List Log.Filter.Complaint :=
  match inEnvironment.bind fun v => Log.Filter.parse? v.toList with
  | some filter => (filter, [])
  | none => Log.Filter.lenient level.toList

/-- Starts with a configuration. -/
def configured (s : Setting) (c : Config) : Program :=
  let (filter, complaints) := filterOf s.filter c.logging.level
  let logger : Logger := ⟨filter, c.logging.format⟩
  complaints.foldr (fun complaint next => .complain (complaint.message ++ "\n") next)
    (logger.write (configEntry c) (start logger (Server.ofConfig c)))

/-- The configuration with the port that was asked for. -/
def withPort (port : Option UInt16) (c : Config) : Config :=
  { Override.unchanged with port := port }.apply c

/-- Starts with what came of loading the configuration. -/
def loaded (s : Setting) (port : Option UInt16) : Except Config.LoadError Config → Program
  | .error e => fail (.config e)
  | .ok c => configured s (withPort port c)

/-- Does what was asked for. -/
def perform (s : Setting) (r : CommandLine.Request) : Program :=
  if r.version then .print (s.build.summary ++ "\n") (.exit 0)
  else match Config.file? r.config with
    | none => loaded s r.port (.ok Config.unset.withDefaults)
    | some path => .read path fun content => loaded s r.port (Config.ofFile path content)

/-- The whole program. -/
def launch (s : Setting) : Program :=
  let args := CommandLine.normalize s.args
  match CommandLine.parse args with
  | .ok r => perform s r
  | .error refusal =>
    let report := refusal.message (CommandLine.programName args)
    if refusal.isError then .complain report (.exit 1) else .print report (.exit 0)

end Program

end AgentHost
