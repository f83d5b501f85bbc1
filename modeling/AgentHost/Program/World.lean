import AgentHost.Api.Service
import AgentHost.Program
/-!
# Running the program in a world

A `World` has files, a network and a clock, and knows what will happen to a server
that serves. `Program.runIn` runs a program in a world and keeps a record of it:
what was written, what was read and bound, and the exit code. A server that
nothing happens to serves forever, and has no exit code. `Program.responses` says
what clients get from it meanwhile.
-/

namespace AgentHost

/-- What surrounds a run. -/
structure World where
  files : Files
  bind : ServerSettings → Except IoError Endpoint
  /-- Clients get to an address that is bound. -/
  isReachable : Bool
  /-- What ends the wait of a server, if anything does. -/
  wake : Option Wake
  drained : Drained
  time : String

/-- What came of a run. -/
structure Transcript where
  output : String
  errors : String
  /-- The files that were read. -/
  reads : List Path
  /-- The addresses that were to be bound. -/
  binds : List String
  code : Option UInt8
  deriving DecidableEq, Repr

namespace Transcript

/-- Nothing happened, and it is over or not. -/
def ending (code : Option UInt8) : Transcript := ⟨"", "", [], [], code⟩

end Transcript

/-- An entry of the log as a line. -/
def LogFormat.line (format : LogFormat) (time : String) (entry : Log.Entry) : String :=
  match format with
  | .text => entry.line time
  | .json => entry.jsonLine time

namespace Program

/-- Runs a program in a world. -/
def runIn (w : World) : Program → Transcript
  | .exit code => .ending (some code)
  | .print text next =>
    let t := next.runIn w
    { t with output := text ++ t.output }
  | .complain text next =>
    let t := next.runIn w
    { t with errors := text ++ t.errors }
  | .log format entry next =>
    let t := next.runIn w
    { t with output := format.line w.time entry ++ "\n" ++ t.output }
  | .read path next =>
    let t := (next (w.files.read path)).runIn w
    { t with reads := path :: t.reads }
  | .bind settings next =>
    let t := (next (w.bind settings)).runIn w
    { t with binds := Server.address settings :: t.binds }
  | .serve _ next =>
    match w.wake with
    | some wake => (next wake).runIn w
    | none => .ending none
  | .drain _ next => (next w.drained).runIn w

/-- What clients get for requests that come while a program serves: the responses of
the router, if they get to the server, and else nothing. -/
def responses (w : World) (router : Api.Router) (requests : List Http.Request) : Program → List (Option Http.Response)
  | .exit _ => requests.map fun _ => none
  | .print _ next | .complain _ next | .log _ _ next => next.responses w router requests
  | .read path next => (next (w.files.read path)).responses w router requests
  | .bind settings next => (next (w.bind settings)).responses w router requests
  | .serve settings _ => requests.map fun request =>
    if w.isReachable then some (router.respond settings request).response else none
  | .drain _ next => (next w.drained).responses w router requests

end Program

end AgentHost
