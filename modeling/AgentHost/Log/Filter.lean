import AgentHost.Log.Entry
import AgentHost.Text.Blank
/-!
# Which entries are written

A filter is a list of directives with commas between them. A directive is a
level, a source, or a source with a level; it may ask for a span or for named
values besides. Of the directives that an entry meets, the most specific one
decides: the one with the longest source, then the one with the most names, then
the last. Where there is no directive, errors are let through and nothing else.

A source names every source that starts with it. No entry stands in a span, so a
directive that asks for one lets nothing through.
-/

namespace AgentHost.Log

/-- How much is let through: nothing, or the levels of that rank and below. -/
abbrev Threshold := Nat

/-- Everything is let through. -/
def Threshold.all : Threshold := 5

/-- A part of a filter. -/
structure Directive where
  threshold : Threshold
  source : Option (List Char)
  span : Option (List Char)
  /-- The names of values, and whether a certain value is asked for. -/
  names : List (List Char × Bool)
  deriving DecidableEq, Repr

/-- Why a text is no directive. -/
inductive DirectiveError where
  | malformed
  | unknownLevel
  deriving DecidableEq, Repr

/-- The error in words. -/
def DirectiveError.message : DirectiveError → String
  | .malformed => "invalid filter directive"
  | .unknownLevel =>
    "error parsing level filter: expected one of \"off\", \"error\", \"warn\", " ++
    "\"info\", \"debug\", \"trace\", or a number 0-5"

/-! ## Levels -/

/-- The names of levels. -/
def levelNames : List (String × Threshold) :=
  [("off", 0), ("error", 1), ("warn", 2), ("info", 3), ("debug", 4), ("trace", 5)]

/-- The value of decimal digits, if there are any and nothing else. -/
def digits? (cs : List Char) : Option Nat :=
  if cs ≠ [] ∧ cs.all Char.isDigit then
    some (cs.foldl (fun n c => 10 * n + (c.toNat - 48)) 0)
  else none

/-- The number without its plus sign. -/
def number? : List Char → Option Nat
  | '+' :: rest => digits? rest
  | cs => digits? cs

/-- The level that a text names, by its number or by its name in any case. An
empty text names errors. -/
def threshold? (cs : List Char) : Option Threshold :=
  match number? cs with
  | some n => if n ≤ 5 then some n else none
  | none =>
    if cs = [] then some 1
    else levelNames.lookup (String.ofList cs).toLower

/-! ## Directives -/

namespace Directive

/-- Lets errors through. -/
def errors : Directive := ⟨1, none, none, []⟩

/-- The text from one position to another. -/
def between (text : List Char) (start stop : Nat) : List Char :=
  (text.take stop).drop start

/-- The directive with a level behind its equals sign. -/
def withLevel (d : Directive) (level : List Char) : Except DirectiveError Directive :=
  if level = [] then .ok d
  else match threshold? level with
    | some t => .ok { d with threshold := t }
    | none => .error .unknownLevel

/-- Reads what follows a closing bracket: nothing, or an equals sign and a level.
`rest` stands at position `n`. -/
def readEnd (text : List Char) (d : Directive) (n : Nat) :
    List Char → Except DirectiveError Directive
  | [] => .ok d
  | '=' :: _ => d.withLevel (text.drop (n + 1))
  | _ => .error .malformed

/-- A name, and whether a value is asked for. -/
def nameOf (field : List Char) : List Char × Bool :=
  (field.takeWhile (· ≠ '='), field.contains '=')

/-- Reads a name in braces, and the closing bracket. -/
def readName (text : List Char) (d : Directive) (n : Nat) (cs : List Char) :
    Except DirectiveError Directive :=
  let stop := n + (cs.takeWhile (· ≠ '\x7d')).length
  let name := between text n stop
  match cs.dropWhile (· ≠ '\x7d') with
  | _ :: ']' :: rest =>
    if name = [] then .error .malformed
    else readEnd text { d with names := [nameOf name] } (stop + 2) rest
  | _ => .error .malformed

/-- Reads what follows an opening bracket: a span, and perhaps a name in braces. -/
def readSpan (text : List Char) (d : Directive) (n : Nat) (cs : List Char) :
    Except DirectiveError Directive :=
  let inside (c : Char) : Bool := c ≠ ']' && c ≠ '\x7b'
  let stop := n + (cs.takeWhile inside).length
  let span := between text n stop
  match cs.dropWhile inside with
  | ']' :: rest => readEnd text { d with span := some span } (stop + 1) rest
  | _ :: rest =>
    readName text { d with span := if span = [] then none else some span } (stop + 1) rest
  | [] => .error .malformed

/-- The character may start a source. Beyond ASCII every character may. -/
def isStart (c : Char) : Bool :=
  c.isAlphanum || c = '-' || c = ':' || c = '_' || 0x80 ≤ c.toNat

/-- Reads a directive. Positions are counted in the trimmed text, while the parts
are cut from the text as it is. -/
def parse (text : List Char) : Except DirectiveError Directive :=
  let inside (c : Char) : Bool := c ≠ '=' && c ≠ '['
  let all : Directive := ⟨.all, none, none, []⟩
  match Text.trim text with
  | [] => .error .malformed
  | '[' :: rest => readSpan text all 1 rest
  | c :: rest =>
    if isStart c then
      let trimmed := c :: rest
      let stop := (trimmed.takeWhile inside).length
      let sourced : Directive := { all with source := some (between text 0 stop) }
      match trimmed.dropWhile inside with
      | '=' :: _ => sourced.withLevel (text.drop (stop + 1))
      | _ :: rest => readSpan text sourced (stop + 1) rest
      | [] =>
        match threshold? text with
        | some t => .ok { all with threshold := t }
        | none => .ok { all with source := some text }
    else .error .malformed

/-- The directive asks for nothing that an entry cannot have. -/
def isStatic (d : Directive) : Bool := d.span = none && d.names.all (!·.2)

/-- The entry meets the directive. -/
def isMet (d : Directive) (e : Entry) : Bool :=
  d.isStatic
    && (match d.source with
      | some source => source.isPrefixOf e.source.toList
      | none => true)
    && d.names.all fun (name, _) =>
      name = "message".toList || e.fields.any fun (field, _) => field.toList = name

/-- How specific the directive is. -/
def rank (d : Directive) : Nat × Nat :=
  (match d.source with
    | some source => source.length + 1
    | none => 0, d.names.length)

/-- The directive comes before another one that is met too. -/
def outranks (d other : Directive) : Bool :=
  d.rank.1 > other.rank.1
    || (d.rank.1 = other.rank.1 && (d.rank.2 > other.rank.2
      || (d.rank.2 = other.rank.2 && d.names.map (·.1) > other.names.map (·.1))))

end Directive

/-! ## Filters -/

/-- The directives of a filter. -/
structure Filter where
  directives : List Directive
  deriving DecidableEq, Repr

namespace Filter

/-- Cuts a text at its commas. -/
def cut : List Char → List (List Char)
  | [] => [[]]
  | c :: rest =>
    if c = ',' then [] :: cut rest
    else match cut rest with
      | first :: more => (c :: first) :: more
      | [] => [[c]]

/-- The parts of a filter. -/
def parts (text : List Char) : List (List Char) := (cut text).filter (· ≠ [])

/-- The filter of some directives. -/
def ofDirectives (ds : List Directive) : Filter :=
  ⟨if ds = [] then [Directive.errors] else ds⟩

/-- The filter that a text spells, if every part of it is a directive. -/
def parse? (text : List Char) : Option Filter :=
  match (parts text).mapM Directive.parse with
  | .ok ds => some (ofDirectives ds)
  | .error _ => none

/-- A part that is no directive, and why. -/
structure Complaint where
  part : List Char
  cause : DirectiveError
  deriving DecidableEq, Repr

/-- The complaint in words. -/
def Complaint.message (c : Complaint) : String :=
  "ignoring `" ++ String.ofList c.part ++ "`: " ++ c.cause.message

/-- The filter of the parts that are directives, and a complaint of every other
one. -/
def lenient (text : List Char) : Filter × List Complaint :=
  let read := (parts text).map fun part => (part, Directive.parse part)
  (ofDirectives (read.filterMap fun (_, d) => d.toOption),
    read.filterMap fun (part, d) => match d with
      | .ok _ => none
      | .error cause => some ⟨part, cause⟩)

/-- The more specific of two directives; the later one if neither is. -/
def pick (best : Option Directive) (d : Directive) : Option Directive :=
  match best with
  | some b => if b.outranks d then some b else some d
  | none => some d

/-- The directive that decides about an entry. -/
def deciding? (f : Filter) (e : Entry) : Option Directive :=
  (f.directives.filter (·.isMet e)).foldl pick none

/-- The entry is written. -/
def lets (f : Filter) (e : Entry) : Bool :=
  match f.deciding? e with
  | some d => e.level.rank ≤ d.threshold
  | none => false

end Filter

end AgentHost.Log
