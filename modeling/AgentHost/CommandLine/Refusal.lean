import AgentHost.CommandLine
/-!
# Why a command line is refused

A `Refusal` is the first thing wrong with a command line, or the wish for help.
`Refusal.message` is the whole report, with a line on the usage where that helps.
-/

namespace AgentHost.CommandLine

/-- Why a number is refused. -/
inductive NumberProblem where
  | empty
  | invalidDigit
  | tooLarge
  | tooSmall
  | outOfRange (n : Int)
  deriving DecidableEq, Repr

/-- The problem in words. -/
def NumberProblem.message : NumberProblem → String
  | .empty => "cannot parse integer from empty string"
  | .invalidDigit => "invalid digit found in string"
  | .tooLarge => "number too large to fit in target type"
  | .tooSmall => "number too small to fit in target type"
  | .outOfRange n => toString n ++ " is not in 1..=65535"

/-- Why a command line is refused. -/
inductive Refusal where
  /-- Help was asked for. -/
  | help
  /-- There is no such argument. `used` are the options that stand before it. -/
  | unknownArgument (shown : String) (similar : Option Flag) (used : List Flag)
  /-- An option has no value. -/
  | missingValue (flag : Flag)
  /-- The value of an option is no number in its range. -/
  | invalidNumber (flag : Flag) (value : List Char) (problem : NumberProblem)
  /-- The value of an option is not text. -/
  | notText
  /-- An option stands there twice. -/
  | repeated (flag : Flag)
  /-- An option has a value and takes none. -/
  | unwantedValue (flag : Flag) (value : String) (used : List Flag)
  deriving DecidableEq, Repr

namespace Refusal

/-- The line on the usage: all options, or those that are in use. -/
def usage (program : String) (used : List Flag) : String :=
  "Usage: " ++ program ++
    (if used.isEmpty then " [OPTIONS]"
    else String.join (used.map fun f => " " ++ f.shown))

/-- The help text. -/
def helpText (program : String) : String :=
  "agnx agent runtime server\n\n" ++ usage program [] ++ "\n\n" ++
  "Options:\n" ++
  "  -c, --config <PATH>  Path to a YAML config file. Defaults apply when omitted\n" ++
  "  -p, --port <PORT>    Port to listen on, overriding the config file\n" ++
  "  -V, --version        Print build metadata and exit\n" ++
  "  -h, --help           Print help\n"

/-- The end of every report of an error. -/
def hint : String := "\n\nFor more information, try '--help'.\n"

/-- The whole report. -/
def message (program : String) : Refusal → String
  | .help => helpText program
  | .unknownArgument shown similar used =>
    "error: unexpected argument '" ++ shown ++ "' found"
      ++ (match similar with
        | some f => "\n\n  tip: a similar argument exists: '--" ++ f.long ++ "'"
        | none => "")
      ++ "\n\n" ++ usage program used ++ hint
  | .missingValue flag =>
    "error: a value is required for '" ++ flag.shown ++ "' but none was supplied" ++ hint
  | .invalidNumber flag value problem =>
    "error: invalid value '" ++ String.ofList value ++ "' for '" ++ flag.shown ++ "': "
      ++ problem.message ++ hint
  | .notText =>
    "error: invalid UTF-8 was detected in one or more arguments\n\n" ++ usage program [] ++ hint
  | .repeated flag =>
    "error: the argument '" ++ flag.shown ++ "' cannot be used multiple times\n\n"
      ++ usage program [] ++ hint
  | .unwantedValue flag value used =>
    "error: unexpected value '" ++ value ++ "' for '" ++ flag.shown
      ++ "' found; no more were expected\n\n" ++ usage program used ++ hint

/-- The report is an error, and no answer to a question. -/
def isError : Refusal → Bool
  | .help => false
  | _ => true

end Refusal

end AgentHost.CommandLine
