import AgentHost.CommandLine.Refusal
import AgentHost.CommandLine.Similar
import AgentHost.Number.Numeral
/-!
# Reading a command line

Arguments are read in order. The value of an option may stand behind an equals
sign, behind the letter of a short option, or in the next argument. A value in
the next argument is looked at only when the argument behind it is known to be an
option, or at the end; so an unknown argument behind it is reported first.
-/

namespace AgentHost.CommandLine

open Text (Bytes)

/-! ## Values -/

/-- Reads decimal digits behind those whose value is `value`, up to a limit. The
first character that is no digit or passes the limit decides. -/
def parseDigits (limit value : Nat) (beyond : NumberProblem) :
    List Char → Except NumberProblem Nat
  | [] => .ok value
  | c :: rest =>
    if !c.isDigit then .error .invalidDigit
    else
      let value := value * 10 + (c.toNat - '0'.toNat)
      if limit < value then .error beyond else parseDigits limit value beyond rest

/-- Reads an integer of 64 bits with an optional sign. -/
def parseInteger : List Char → Except NumberProblem Int
  | [] => .error .empty
  | ['+'] => .error .invalidDigit
  | ['-'] => .error .invalidDigit
  | '+' :: digits => (parseDigits (UInt64.size / 2 - 1) 0 .tooLarge digits).map Int.ofNat
  | '-' :: digits => (parseDigits (UInt64.size / 2) 0 .tooSmall digits).map fun n => -(n : Int)
  | digits => (parseDigits (UInt64.size / 2 - 1) 0 .tooLarge digits).map Int.ofNat

/-- Reads a port, which is not zero. -/
def parsePort (cs : List Char) : Except NumberProblem UInt16 :=
  match parseInteger cs with
  | .error problem => .error problem
  | .ok n =>
    if 1 ≤ n ∧ n ≤ 65535 then .ok (UInt16.ofNat n.toNat) else .error (.outOfRange n)

/-- The request with the value of an option. -/
def Request.withValue (r : Request) (flag : Flag) (value : Bytes) : Except Refusal Request :=
  match flag with
  | .config =>
    if value = [] then .error (.missingValue .config) else .ok { r with config := some ⟨value⟩ }
  | .port =>
    match Text.Utf8.decode? value with
    | none => .error .notText
    | some cs =>
      match parsePort cs with
      | .ok port => .ok { r with port := some port }
      | .error problem => .error (.invalidNumber .port cs problem)
  | .version => .ok { r with version := true }
  | .help => .error .help

/-! ## Options -/

/-- An option whose value stands in the next argument, if it has one yet. -/
structure Pending where
  flag : Flag
  value : Option Bytes

/-- What was read so far. -/
structure Reading where
  request : Request
  /-- The options that were met, in order. -/
  used : List Flag
  pending : Option Pending

namespace Reading

/-- Nothing was read. -/
def start : Reading := ⟨Request.nothing, [], none⟩

/-- Takes an option, with its value if it takes one. What was read is also
answered where the option is refused. -/
def take (r : Reading) (flag : Flag) (value : Option Bytes) : Reading × Option Refusal :=
  if flag.takesValue && value.isNone then (r, some (.missingValue flag))
  else if flag = .help then (r, some .help)
  else if r.used.contains flag then
    ({ r with used := r.used.erase flag }, some (.repeated flag))
  else
    let r := { r with used := r.used ++ [flag] }
    match r.request.withValue flag (value.getD []) with
    | .ok request => ({ r with request := request }, none)
    | .error refusal => (r, some refusal)

/-- Takes the option that waits for the next argument. -/
def settle (r : Reading) : Reading × Option Refusal :=
  match r.pending with
  | some p => { r with pending := none }.take p.flag p.value
  | none => (r, none)

/-- Takes the option that waits, and then another. -/
def settleAndTake (r : Reading) (flag : Flag) (value : Option Bytes) :
    Except Refusal Reading :=
  match r.settle with
  | (_, some refusal) => .error refusal
  | (r, none) =>
    match r.take flag value with
    | (_, some refusal) => .error refusal
    | (r, none) => .ok r

/-- Takes an option whose value will stand in the next argument. -/
def await (r : Reading) (flag : Flag) : Except Refusal Reading :=
  match r.settle with
  | (_, some refusal) => .error refusal
  | (r, none) => .ok { r with pending := some ⟨flag, none⟩ }

/-- Refuses an argument that is no long option. -/
def unknownLong {α : Type} (r : Reading) (name : List Char) : Except Refusal α :=
  let used := r.settle.1.used
  let similar := Similar.closest? name
  let used := match similar with
    | some flag => if used.contains flag then used else used ++ [flag]
    | none => used
  .error (.unknownArgument ("--" ++ String.ofList name) similar used)

/-- Refuses an argument. -/
def unknown {α : Type} (shown : String) : Except Refusal α :=
  .error (.unknownArgument shown none [])

/-- Reads an argument behind its two dashes: a name, and a value behind an equals
sign. -/
def long (r : Reading) (body : Bytes) : Except Refusal Reading :=
  let nameBytes := body.takeWhile (· ≠ equals)
  let value := match body.dropWhile (· ≠ equals) with
    | _ :: value => some value
    | [] => none
  let name := (Text.Utf8.lossy nameBytes).toList
  match (Text.Utf8.decode? nameBytes).bind Flag.ofLong? with
  | none => r.unknownLong name
  | some flag =>
    match flag.takesValue, value with
    | true, none => r.await flag
    | true, some value => r.settleAndTake flag (some value)
    | false, some value =>
      let used := if r.used.contains flag then r.used else r.used ++ [flag]
      .error (.unwantedValue flag (Text.Utf8.lossy value) used)
    | false, none => r.settleAndTake flag none

/-- Reads an argument behind its one dash: letters of options, where the rest
behind an option that takes a value is that value. -/
def short (r : Reading) : Nat → Bytes → Except Refusal Reading
  | 0, _ => .ok r
  | _ + 1, [] => .ok r
  | fuel + 1, b :: rest =>
    match Text.Utf8.first b rest with
    | (.broken _, _) => unknown ("-" ++ Text.Utf8.lossy (b :: rest))
    | (.char c, rest) =>
      match Flag.ofShort? c with
      | none => unknown (String.ofList ['-', c])
      | some flag =>
        if flag.takesValue then
          match rest with
          | [] => r.await flag
          | first :: more => r.settleAndTake flag (some (if first = equals then more else rest))
        else
          match r.settleAndTake flag none with
          | .ok r => r.short fuel rest
          | .error refusal => .error refusal

/-- Gives the next argument to the option that waits for it. -/
def give (r : Reading) (arg : Bytes) : Except Refusal Reading :=
  match r.pending with
  | some ⟨flag, none⟩ => .ok { r with pending := some ⟨flag, some arg⟩ }
  | _ => unknown (Text.Utf8.lossy arg)

/-- Reads one argument. -/
def argument (r : Reading) (arg : Bytes) : Except Refusal Reading :=
  match arg with
  | a :: b :: body =>
    if a = dash then
      if b = dash then r.long body else r.short (body.length + 1) (b :: body)
    else r.give arg
  | _ => r.give arg

/-- Takes the option that waits, at the end of the arguments. -/
def finish (r : Reading) : Except Refusal Request :=
  match r.settle with
  | (_, some refusal) => .error refusal
  | (r, none) => .ok r.request

/-- Reads the arguments behind the name of the program. Behind a bare `--` no
argument is an option, and there is none that is not. -/
def arguments (r : Reading) : List Bytes → Except Refusal Request
  | [] => r.finish
  | arg :: rest =>
    if arg = escape then
      match rest with
      | [] => r.finish
      | arg :: _ => unknown (Text.Utf8.lossy arg)
    else
      match r.argument arg with
      | .ok r => r.arguments rest
      | .error refusal => .error refusal

end Reading

/-- Reads a command line. The first argument is the name of the program. -/
def parse (args : List Bytes) : Except Refusal Request :=
  Reading.start.arguments args.tail

/-- The name of the program in reports: the file name of the first argument, if
it is text. -/
def programName (args : List Bytes) : String :=
  ((args.head?.bind fun arg => Path.fileName? ⟨arg⟩).bind fun name =>
    (Text.Utf8.decode? name).map String.ofList).getD "agnx"

end AgentHost.CommandLine
