import AgentHost.Yaml.Cursor
/-!
# Tokens

The words of a YAML text: its indicators, scalars, tags, anchors and directives,
and the invisible ones that indentation stands for. A token knows where it
starts and stops.
-/

namespace AgentHost.Yaml

/-- How a scalar is written. -/
inductive Style where
  | plain
  | singleQuoted
  | doubleQuoted
  | literal
  | folded
  deriving DecidableEq, Repr

/-- A tag as written: a handle that stands for a beginning, and the rest. -/
structure TagName where
  handle : List Char
  suffix : List Char
  deriving DecidableEq, Repr

namespace Token

/-- What a token is. -/
inductive Kind where
  | versionDirective (major minor : Nat)
  | tagDirective (handle beginning : List Char)
  | documentStart
  | documentEnd
  | blockSequenceStart
  | blockMappingStart
  | blockEnd
  | flowSequenceStart
  | flowSequenceEnd
  | flowMappingStart
  | flowMappingEnd
  | blockEntry
  | flowEntry
  | key
  | value
  | alias (name : List Char)
  | anchor (name : List Char)
  | tag (name : TagName)
  | scalar (text : List Char) (style : Style)
  | streamEnd
  deriving DecidableEq, Repr

end Token

/-- A word of the text and where it stands. -/
structure Token where
  kind : Token.Kind
  start : Mark
  stop : Mark
  deriving DecidableEq, Repr

end AgentHost.Yaml
