import AgentHost.Path
/-!
# The configuration

A `Config` says where the server listens, how long a request may take, where its
data lies and how it logs. A field that is zero or empty is not set;
`Config.withDefaults` sets all of them. The directory of the agents is then
derived from the data directory that was resolved before.

An `Override` sets some fields and leaves the others.
-/

namespace AgentHost

/-- How log lines are written. -/
inductive LogFormat where
  | text
  | json
  deriving DecidableEq, Repr, Inhabited

/-- Where the server listens and how many seconds a request may take. -/
structure ServerSettings where
  host : String
  port : UInt16
  readTimeout : UInt64
  writeTimeout : UInt64
  deriving DecidableEq, Repr, Inhabited

/-- What is logged and how. -/
structure LogSettings where
  level : String
  format : LogFormat
  deriving DecidableEq, Repr, Inhabited

/-- The settings of a server. -/
structure Config where
  server : ServerSettings
  dataDir : Path
  agentsDir : Path
  logging : LogSettings
  deriving DecidableEq, Repr, Inhabited

namespace Config

/-- Nothing is set. -/
def unset : Config :=
  ⟨⟨"", 0, 0, 0⟩, ⟨[]⟩, ⟨[]⟩, ⟨"", .text⟩⟩

/-! ## Defaults -/

/-- The address that listens everywhere. -/
def defaultHost : String := "0.0.0.0"

/-- The port that is used when none is given. -/
def defaultPort : UInt16 := 8080

/-- The seconds that reading and answering a request may take each. -/
def defaultTimeout : UInt64 := 30

/-- The directory of the data. -/
def defaultDataDir : Path := Path.ofString "./.agnx"

/-- The name of the directory of the agents inside the data directory. -/
def agentsName : Text.Bytes := Text.Utf8.ofString "agents"

/-- What is logged when nothing is said. -/
def defaultLevel : String := "info"

end Config

/-- The settings with a default in every field that is not set. -/
def ServerSettings.withDefaults (s : ServerSettings) : ServerSettings where
  host := if s.host = "" then Config.defaultHost else s.host
  port := if s.port = 0 then Config.defaultPort else s.port
  readTimeout := if s.readTimeout = 0 then Config.defaultTimeout else s.readTimeout
  writeTimeout := if s.writeTimeout = 0 then Config.defaultTimeout else s.writeTimeout

/-- The settings with a level. -/
def LogSettings.withDefaults (l : LogSettings) : LogSettings :=
  { l with level := if l.level = "" then Config.defaultLevel else l.level }

namespace Config

/-- The configuration with a default in every field that is not set. -/
def withDefaults (c : Config) : Config :=
  let dataDir := if c.dataDir.isEmpty then defaultDataDir else c.dataDir
  { server := c.server.withDefaults
    dataDir := dataDir
    agentsDir := if c.agentsDir.isEmpty then dataDir.join agentsName else c.agentsDir
    logging := c.logging.withDefaults }

/-- The configurations are equal, where paths are compared by their components. -/
def same (c d : Config) : Bool :=
  c.server == d.server && c.dataDir.same d.dataDir && c.agentsDir.same d.agentsDir
    && c.logging == d.logging

end Config

/-! ## Overrides -/

/-- New values for some fields. -/
structure Override where
  host : Option String
  port : Option UInt16
  readTimeout : Option UInt64
  writeTimeout : Option UInt64
  dataDir : Option Path
  agentsDir : Option Path
  level : Option String
  format : Option LogFormat
  deriving DecidableEq, Repr

namespace Override

/-- Leaves everything as it is. -/
def unchanged : Override :=
  ⟨.none, .none, .none, .none, .none, .none, .none, .none⟩

/-- The configuration with the new values. -/
def apply (o : Override) (c : Config) : Config where
  server := {
    host := o.host.getD c.server.host
    port := o.port.getD c.server.port
    readTimeout := o.readTimeout.getD c.server.readTimeout
    writeTimeout := o.writeTimeout.getD c.server.writeTimeout }
  dataDir := o.dataDir.getD c.dataDir
  agentsDir := o.agentsDir.getD c.agentsDir
  logging := {
    level := o.level.getD c.logging.level
    format := o.format.getD c.logging.format }

end Override

end AgentHost
