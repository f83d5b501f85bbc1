import AgentHost.Network
import AgentHost.Server
import AgentHost.Serving.Handoff
/-!
# The life of a server

A server is bound once and then serves once, or does both at a time. A `Life`
holds what there is of it: the server that is not bound yet, the address that is
bound, the run of the two parties that serve, and whether shutdown was asked for.
Each operation answers what it did, or what was missing.

Connections to the server are no part of this, so that there are never requests.
-/

namespace AgentHost

open Serving (Result)

/-- A server that serves, or that failed to. -/
inductive Engagement where
  | unbound (cause : ServerError)
  | serving (parties : Serving.State)

/-- What there is of a server. -/
structure Life where
  network : Network
  server : Option Server
  /-- The address that is bound and does not serve yet. -/
  bound : Option Endpoint
  engagement : Option Engagement
  grace : Duration
  triggered : Bool

/-- What is done with a server. -/
inductive Life.Step where
  | bind
  | serve
  | run
  | trigger
  | isTriggered
  | isRunning
  | join
  | dropBound
  deriving DecidableEq, Repr

/-- What an operation answers. -/
inductive Life.Answer where
  | ok
  | flag (b : Bool)
  | bound (e : Endpoint)
  | result (r : Result)
  | consumed
  | notBound
  | noTask
  /-- There will never be an answer. -/
  | never

namespace Life

/-- A server that nothing was done with. -/
def start (network : Network) (server : Server) : Life :=
  ⟨network, some server, none, none, server.grace, false⟩

/-- Binds the address of a server. -/
def bindServer (l : Life) (server : Server) : Except ServerError Endpoint :=
  (l.network.bind server.config.server).mapError
    (ServerError.bind (Server.address server.config.server))

/-- The parties that serve from now on. -/
def engage (l : Life) : Engagement :=
  .serving ((Serving.State.start l.triggered).settle l.grace)

/-- Asks for shutdown. -/
def trigger (l : Life) : Life :=
  { l with
    triggered := true
    engagement := match l.engagement with
      | some (.serving parties) =>
        some (.serving ((parties.step l.grace .trigger).settle l.grace))
      | engagement => engagement }

/-- The result of an engagement, if there is one. -/
def Engagement.result? : Engagement → Option Result
  | .unbound cause => some (.failed cause)
  | .serving parties => parties.caller.result?

/-- Does one thing. -/
def step (l : Life) : Step → Life × Answer
  | .bind =>
    match l.server with
    | none => (l, .consumed)
    | some server =>
      let l := { l with server := none }
      match l.bindServer server with
      | .ok e => ({ l with bound := some e }, .bound e)
      | .error cause => (l, .result (.failed cause))
  | .serve =>
    match l.bound with
    | none => (l, .notBound)
    | some _ => ({ l with bound := none, engagement := some l.engage }, .ok)
  | .run =>
    match l.server with
    | none => (l, .consumed)
    | some server =>
      let l := { l with server := none }
      match l.bindServer server with
      | .ok _ => ({ l with engagement := some l.engage }, .ok)
      | .error cause => ({ l with engagement := some (.unbound cause) }, .ok)
  | .trigger => (l.trigger, .ok)
  | .isTriggered => (l, .flag l.triggered)
  | .isRunning =>
    match l.engagement with
    | none => (l, .noTask)
    | some engagement => (l, .flag (Engagement.result? engagement).isNone)
  | .join =>
    match l.engagement with
    | none => (l, .noTask)
    | some engagement =>
      ({ l with engagement := none },
        match Engagement.result? engagement with
        | some result => .result result
        | none => .never)
  | .dropBound =>
    match l.bound with
    | none => (l, .notBound)
    | some _ => ({ l with bound := none }, .ok)

end Life

end AgentHost
