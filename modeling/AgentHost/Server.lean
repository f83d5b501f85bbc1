import AgentHost.Config.Outline
import AgentHost.Duration
/-!
# The server

A server has a configuration and a grace window, the time that requests still in
flight have to finish once the server is asked to stop.
-/

namespace AgentHost

/-- A server before it has bound its address. -/
structure Server where
  config : Config
  grace : Duration

namespace Server

/-- The grace window when none is given. -/
def defaultGrace : Duration := .ofSeconds 10

/-- A server for a configuration. -/
def ofConfig (c : Config) : Server := ⟨c, defaultGrace⟩

/-- The address to bind, as it is written. -/
def address (s : ServerSettings) : String := s.host ++ ":" ++ toString s.port.toNat

/-- The outline of a server. The state it shares with its requests is left out. -/
def outline (s : Server) : Text.Outline :=
  .fields "Server" [("config", s.config.outline), ("grace", .word s.grace.shown)] true

/-- The outline of the state that requests share, which shows nothing. -/
def stateOutline : Text.Outline := .fields "AppState" [] true

end Server

end AgentHost
