import AgentHost.Api.Service
import AgentHost.Program.World
import Std.Async
import Std.Http.Server
import Std.Time
/-!
# Running the program for real

The steps of a program are done with the system's files, sockets and signals.
Every decision is made by the program itself.
-/

namespace AgentHost.Main

open Std.Async (Async)

/-- The failure that the system reports. -/
def failure : IO.Error → IoError
  | .noFileOrDirectory _ code _ | .permissionDenied _ code _ | .inappropriateType _ code _
  | .invalidArgument _ code _ | .resourceExhausted _ code _ | .noSuchThing _ code _
  | .alreadyExists _ code _ => .system code.toNat
  | .resourceBusy code _ | .otherError code _ | .hardwareFault code _
  | .unsupportedOperation code _ | .illegalOperation code _ | .protocolError code _
  | .timeExpired code _ | .resourceVanished code _ | .unsatisfiedConstraints code _ =>
    .system code.toNat
  | .interrupted _ code _ => .system code.toNat
  | .unexpectedEof => .other "unexpected end of file"
  | .userError text => .other text

/-- The bytes of a file. -/
def readFile (path : Path) : IO (Except IoError Text.Bytes) := do
  match Text.Utf8.decode? path.bytes with
  | none => return .error .notFound
  | some name =>
    try
      let content ← IO.FS.readBinFile (String.ofList name)
      return .ok content.toList
    catch e => return .error (failure e)

/-- The time of an entry. -/
def time : IO String := do
  let now ← Std.Time.PlainDateTime.now
  return now.format "uuuu-MM-dd'T'HH:mm:ss.SSSSSS'Z'"

/-- The answer to a request that came over a connection. The connection itself
leaves out the body of an answer to `HEAD`. -/
def answer (build : Api.Build) (settings : ServerSettings) (method target : String) : Api.Answer :=
  let method := if method = "HEAD" then "GET" else method
  match Http.Request.ofParts (Text.Utf8.ofString method) (Text.Utf8.ofString target) [] with
  | .ok request => (Program.router build).respond settings request
  | .error e => .badRequest e.message

/-- Sends a response. The length of the body is told by the connection. -/
def send (r : Http.Response) : Async (Std.Http.Response Std.Http.Body.Any) := do
  let status := (Std.Http.Status.ofCode none (UInt16.ofNat r.status.code)).getD .internalServerError
  let builder := (r.headers.filter (·.1 ≠ "content-length")).foldl
    (fun (b : Std.Http.Response.Builder) (name, value) => (b.header? name value).getD b)
    (Std.Http.Response.withStatus status)
  let body ← Std.Http.Body.Full.ofString r.body
  return builder.body (Std.Http.Body.Any.ofBody body)

/-- Binds an address and answers on it. -/
def listen (build : Api.Build) (settings : ServerSettings) :
    IO (Except IoError (Endpoint × Std.Http.Server)) := do
  match Network.resolve settings.host with
  | .error cause => return .error cause
  | .ok ip =>
    match Std.Net.IPv4Addr.ofString ip with
    | none => return .error Network.unknownHost
    | some addr =>
      let handler := Std.Http.Server.Handler.ofFn fun request => do
        let reply := answer build settings (toString request.line.method) (toString request.line.uri)
        send reply.response
      try
        let server ← Async.block (Std.Http.Server.serve (.v4 ⟨addr, settings.port⟩) handler)
        return .ok (⟨ip, settings.port.toNat⟩, server)
      catch e => return .error (failure e)

/-- Waits for a signal to stop. -/
def awaitSignal : Async Wake := do
  let terminate ← Std.Async.Signal.Waiter.mk .sigterm false
  let interrupt ← Std.Async.Signal.Waiter.mk .sigint false
  Std.Async.Selectable.one #[
    .case terminate.selector fun _ => return .signal .terminate,
    .case interrupt.selector fun _ => return .signal .interrupt]

/-- Stops a server, but waits no longer than that. -/
def drain (server : Std.Http.Server) (grace : Duration) : Async Drained := do
  server.shutdown
  Std.Async.Selectable.one #[
    .case server.waitShutdownSelector fun _ => return .ended none,
    .case (← Std.Async.Selector.sleep (.ofNat grace.millis)) fun _ => return .timedOut]

/-- Writes a text at once. -/
def write (stream : IO.FS.Stream) (text : String) : IO Unit := do
  stream.putStr text
  stream.flush

/-- Does the steps of a program. -/
def perform (build : Api.Build) (server : Option Std.Http.Server) : Program → IO UInt32
  | .exit code => return code.toUInt32
  | .print text next => do
    write (← IO.getStdout) text
    perform build server next
  | .complain text next => do
    write (← IO.getStderr) text
    perform build server next
  | .log format entry next => do
    write (← IO.getStdout) (format.line (← time) entry ++ "\n")
    perform build server next
  | .read path next => do
    let content ← readFile path
    perform build server (next content)
  | .bind settings next => do
    match ← listen build settings with
    | .ok (endpoint, server) => perform build (some server) (next (.ok endpoint))
    | .error cause => perform build none (next (.error cause))
  | .serve _ next => do
    let wake ← awaitSignal.block
    perform build server (next wake)
  | .drain grace next => do
    let drained ← match server with
      | some server => (drain server grace).block
      | none => pure (.ended none)
    perform build server (next drained)

end AgentHost.Main

/-- The program with the arguments it was called with. -/
def main (args : List String) : IO UInt32 := do
  let name := toString (← IO.appPath)
  let build := AgentHost.Api.Build.ofParts none none none none
  let setting : AgentHost.Program.Setting :=
    ⟨build, ← IO.getEnv "RUST_LOG", (name :: args).map AgentHost.Text.Utf8.ofString⟩
  AgentHost.Main.perform build none (AgentHost.Program.launch setting)
