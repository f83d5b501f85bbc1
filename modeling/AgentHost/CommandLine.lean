import AgentHost.Path
/-!
# The command line

Four options. `--config` and `--port` take a value, `--version` and `--help` do
not. Every option has a short form of one letter, and a long form that may also
be written with a single dash.
-/

namespace AgentHost.CommandLine

open Text (Bytes)

/-- An option of the command line. -/
inductive Flag where
  | config
  | port
  | version
  | help
  deriving DecidableEq, Repr

namespace Flag

/-- Every option, in the order of the help text. -/
def all : List Flag := [.config, .port, .version, .help]

/-- The name behind two dashes. -/
def long : Flag → String
  | .config => "config"
  | .port => "port"
  | .version => "version"
  | .help => "help"

/-- The letter behind one dash. -/
def short : Flag → Char
  | .config => 'c'
  | .port => 'p'
  | .version => 'V'
  | .help => 'h'

/-- The word for the option's value, if it takes one. -/
def valueName? : Flag → Option String
  | .config => some "PATH"
  | .port => some "PORT"
  | .version => none
  | .help => none

/-- The option takes a value. -/
def takesValue (f : Flag) : Bool := f.valueName?.isSome

/-- The option as it is written in messages. -/
def shown (f : Flag) : String :=
  "--" ++ f.long ++ match f.valueName? with
    | some name => " <" ++ name ++ ">"
    | none => ""

/-- The option of that long name. -/
def ofLong? (name : List Char) : Option Flag := all.find? fun f => f.long.toList == name

/-- The option of that letter. -/
def ofShort? (c : Char) : Option Flag := all.find? fun f => f.short == c

end Flag

/-- What the command line asks for. -/
structure Request where
  config : Option Path
  port : Option UInt16
  version : Bool
  deriving DecidableEq, Repr

/-- Nothing is asked for. -/
def Request.nothing : Request := ⟨.none, .none, false⟩

/-! ## Single dashes -/

/-- The byte of `-`. -/
def dash : UInt8 := 0x2D

/-- The byte of `=`. -/
def equals : UInt8 := 0x3D

/-- The argument behind which nothing is an option. -/
def escape : Bytes := [dash, dash]

/-- The text is a single dash, the long name of an option, and then nothing or an
equals sign with any text. -/
def isSingleDashLong : List Char → Bool
  | '-' :: rest => (Flag.ofLong? (rest.takeWhile (· ≠ '='))).isSome
  | _ => false

/-- One argument with two dashes in front of a long name. What is not text stays
as it is. -/
def normalizeOne (arg : Bytes) : Bytes :=
  match Text.Utf8.decode? arg with
  | some cs => if isSingleDashLong cs then dash :: arg else arg
  | none => arg

/-- The arguments up to a bare `--` with two dashes in front of long names. -/
def normalizeOptions : List Bytes → List Bytes
  | [] => []
  | arg :: rest =>
    if arg = escape then arg :: rest
    else normalizeOne arg :: normalizeOptions rest

/-- The arguments with two dashes in front of long names. The first one is the
name of the program. -/
def normalize : List Bytes → List Bytes
  | [] => []
  | program :: rest => program :: normalizeOptions rest

end AgentHost.CommandLine
