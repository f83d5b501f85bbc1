import AgentHost.Config.Reading
import AgentHost.Files
import AgentHost.Yaml.Node.Build
import AgentHost.Yaml.Token.Stream
/-!
# Loading a configuration

`Config.parse` reads a text, `Config.load` a file. Without a path, and with an
empty one, no file is read. In every case the defaults are filled in.
-/

namespace AgentHost

/-- The first document of a text. -/
def Yaml.Document.ofText (text : List Char) : Yaml.Document :=
  let (tokens, cut) := Yaml.Token.scan text
  Yaml.Document.ofTokens tokens cut

namespace Config

/-- Why a text is no configuration. -/
inductive TextError where
  | unreadable (fault : Yaml.Fault)
  | mismatch (m : Mismatch)
  | severalDocuments
  deriving DecidableEq, Repr

/-- The reason in one sentence. -/
def TextError.message : TextError → String
  | .unreadable fault => fault.message
  | .mismatch m => m.message
  | .severalDocuments => "deserializing from YAML containing more than one document is not supported"

/-- Why a configuration was not loaded. -/
inductive LoadError where
  | io (path : Path) (cause : IoError)
  | yaml (cause : TextError)
  deriving DecidableEq, Repr

namespace LoadError

/-- The error in one sentence. -/
def message : LoadError → String
  | .io path cause => "failed to read config file " ++ path.lossy ++ ": " ++ cause.message
  | .yaml cause => "failed to parse config YAML: " ++ cause.message

/-- What caused the error. -/
def cause : LoadError → String
  | .io _ cause => cause.message
  | .yaml cause => cause.message

end LoadError

/-- Reads the fields that a document sets. A fault behind them still counts, and
so does a second document. -/
def ofDocument (d : Yaml.Document) : Except TextError Config :=
  match ofNode d.root, d.fault with
  | .error (.mismatch m), _ => .error (.mismatch m)
  | .error .cut, fault => .error (.unreadable (fault.getD (.character 0)))
  | .ok _, some fault => .error (.unreadable fault)
  | .ok c, none => if d.more then .error .severalDocuments else .ok c

/-- Reads the fields that a text sets. -/
def ofText (text : List Char) : Except TextError Config :=
  ofDocument (Yaml.Document.ofText text)

/-- Reads a text and fills in the defaults. -/
def parse (text : List Char) : Except TextError Config :=
  (ofText text).map withDefaults

/-- The file to read, if one is asked for. An empty path asks for none. -/
def file? (path : Option Path) : Option Path := path.filter (!·.isEmpty)

/-- Reads what came of reading the file at a path, and fills in the defaults. -/
def ofFile (path : Path) (content : Except IoError Text.Bytes) : Except LoadError Config :=
  match content.bind Files.text with
  | .error cause => .error (.io path cause)
  | .ok text => (parse text).mapError .yaml

/-- Reads the file that a path names and fills in the defaults. -/
def load (files : Files) (path : Option Path) : Except LoadError Config :=
  match file? path with
  | none => .ok unset.withDefaults
  | some path => ofFile path (files.read path)

end Config

end AgentHost
