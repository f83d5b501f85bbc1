import AgentHost.Config
import AgentHost.Text.Outline
import AgentHost.Text.Quoted
/-!
# A configuration as a reader sees it

Texts and paths stand between quotes, so that nothing in them can be mistaken for
the outline around them.
-/

namespace AgentHost

open Text (Outline Quoted.ofString Quoted.ofBytes)

/-- The name of the format. -/
def LogFormat.name : LogFormat → String
  | .text => "Text"
  | .json => "Json"

/-- The outline of the server settings. -/
def ServerSettings.outline (s : ServerSettings) : Outline :=
  .fields "ServerConfig" [
    ("host", .word (Text.Quoted.ofString s.host)),
    ("port", .word (toString s.port.toNat)),
    ("read_timeout", .word (toString s.readTimeout.toNat)),
    ("write_timeout", .word (toString s.writeTimeout.toNat))] false

/-- The outline of the log settings. -/
def LogSettings.outline (l : LogSettings) : Outline :=
  .fields "LoggingConfig" [
    ("level", .word (Text.Quoted.ofString l.level)),
    ("format", .word l.format.name)] false

/-- The outline of a configuration. -/
def Config.outline (c : Config) : Outline :=
  .fields "Config" [
    ("server", c.server.outline),
    ("data_dir", .word (Text.Quoted.ofBytes c.dataDir.bytes)),
    ("agents_dir", .word (Text.Quoted.ofBytes c.agentsDir.bytes)),
    ("logging", c.logging.outline)] false

end AgentHost
