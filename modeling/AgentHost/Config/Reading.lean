import AgentHost.Config
import AgentHost.Text.Quoted
import AgentHost.Yaml.Node
import AgentHost.Yaml.Scalar
/-!
# Reading a configuration from a document

The root of the document is a mapping with the keys of the configuration;
`server` and `logging` are mappings too. Keys that are not known are passed over
with all they hold. A value of the wrong kind is a `Mismatch`, reported with the
way to it from the root and the place where it starts.

Values are read in the order of the text. So a mismatch in front of the place
where the text stops being readable wins over the fault there, and a fault wins
over what stands behind it.
-/

namespace AgentHost.Config

open Yaml

/-! ## Mismatches -/

/-- What a value was expected to be. -/
inductive Expected where
  | record (name : String)
  | word16
  | word64
  | string
  | path
  | fieldName
  | tag
  | boolean
  | integer
  | float
  | null
  | nothing
  deriving DecidableEq, Repr

/-- The expectation in words. -/
def Expected.message : Expected → String
  | .record name => "struct " ++ name
  | .word16 => "u16"
  | .word64 => "u64"
  | .string => "a string"
  | .path => "path string"
  | .fieldName => "field identifier"
  | .tag => "a YAML tag starting with '!'"
  | .boolean => "a boolean"
  | .integer => "an integer"
  | .float => "a float"
  | .null => "null"
  | .nothing => "unit"

/-- What a value turned out to be. -/
inductive Found where
  | nothing
  | bool (b : Bool)
  | integer (n : Int)
  | float (x : Number.Binary)
  | string (text : List Char)
  | sequence
  | mapping
  deriving DecidableEq, Repr

/-- An integer, with the type it needs when that is wider than 64 bits. -/
def integerMessage (n : Int) : String :=
  "integer `" ++ toString n ++ "`"
    ++ (if UInt64.size ≤ n then " as u128" else if n < -(UInt64.size / 2 : Nat) then " as i128" else "")

/-- The finding in words. -/
def Found.message : Found → String
  | .nothing => "unit value"
  | .bool b => "boolean `" ++ toString b ++ "`"
  | .integer n => integerMessage n
  | .float x => "floating point `" ++ Number.Layout.plain.text Number.Binary.double x ++ "`"
  | .string text => "string " ++ Text.Quoted.ofString (String.ofList text)
  | .sequence => "sequence"
  | .mapping => "map"

/-- Why a value was refused. -/
inductive Reason where
  | wrongType (found : Found) (expected : Expected)
  | wrongValue (found : Found) (expected : Expected)
  | duplicateField (name : String)
  | unknownVariant (name : List Char)
  deriving DecidableEq, Repr

/-- The reason in words. -/
def Reason.message : Reason → String
  | .wrongType found expected => "invalid type: " ++ found.message ++ ", expected " ++ expected.message
  | .wrongValue found expected => "invalid value: " ++ found.message ++ ", expected " ++ expected.message
  | .duplicateField name => "duplicate field `" ++ name ++ "`"
  | .unknownVariant name =>
    "unknown variant `" ++ String.ofList name ++ "`, expected `text` or `json`"

/-- A step from a value to one inside it, or to the one it stands for. -/
inductive Step where
  | key (name : List Char)
  | unnamed
  | alias
  deriving DecidableEq, Repr

/-- The way to a value, the last step first. -/
abbrev Trail := List Step

/-- The way in words: the keys with points between them. -/
def trailMessage : Trail → String
  | [] => ""
  | step :: outer =>
    let front := if outer.isEmpty then "" else trailMessage outer ++ "."
    match step with
    | .key name => front ++ String.ofList name
    | .unnamed => front ++ "?"
    | .alias => front

/-- A value that is not what the configuration needs there. -/
structure Mismatch where
  reason : Reason
  trail : Trail
  mark : Mark
  deriving DecidableEq, Repr

/-- The mismatch in one sentence. -/
def Mismatch.message (m : Mismatch) : String :=
  (if m.trail.isEmpty then "" else trailMessage m.trail ++ ": ")
    ++ m.reason.message ++ m.mark.suffix

/-- Why nothing was read. -/
inductive Refusal where
  /-- The text is cut off here by its fault. -/
  | cut
  | mismatch (m : Mismatch)
  deriving DecidableEq, Repr

/-! ## Values -/

/-- A node and the way to it. -/
structure Place where
  trail : Trail
  node : Node

/-- The place that an alias stands for; any other place is itself. -/
def Place.follow (root : Node) (p : Place) : Place :=
  match p.node with
  | .alias _ slot => ⟨.alias :: p.trail, (root.target? slot).getD .broken⟩
  | _ => p

/-- A refusal of a value that starts at `mark`. -/
def refuse {α : Type} (p : Place) (mark : Mark) (reason : Reason) : Except Refusal α :=
  .error (.mismatch ⟨reason, p.trail, mark⟩)

/-- The beginning of the tags that name a type. -/
def typeTag (name : String) : List Char := ("tag:yaml.org,2002:" ++ name).toList

/-- What a plain scalar turns out to be. -/
def Found.ofPlain (text : List Char) : Found :=
  match Scalar.meaning text with
  | .null => .nothing
  | .bool b => .bool b
  | .integer n => .integer n
  | .float x => .float x
  | .text => .string text

/-- Why a scalar is refused. A tag that names a type asks for that type first. -/
def scalarReason (tag : Option (List Char)) (text : List Char) (style : Style)
    (expected : Expected) : Reason :=
  let forced (found : Option Found) (kind : Expected) : Reason :=
    match found with
    | some found => .wrongType found expected
    | none => .wrongValue (.string text) kind
  let untagged : Reason :=
    .wrongType (if style = .plain then Found.ofPlain text else .string text) expected
  match tag with
  | none => untagged
  | some tag =>
    if tag = typeTag "bool" then forced ((Scalar.bool? text).map .bool) .boolean
    else if tag = typeTag "int" then forced ((Scalar.integer? text).map .integer) .integer
    else if tag = typeTag "float" then forced ((Scalar.float? text).map .float) .float
    else if tag = typeTag "null" then
      forced (if Scalar.isNull text then some .nothing else none) .null
    else if tag.head? = some '!' then untagged
    else .wrongType (.string text) expected

/-- Refuses a node that is of the wrong kind. -/
def wrongKind {α : Type} (p : Place) (expected : Expected) : Except Refusal α :=
  match p.node with
  | .scalar mark _ tag text style => refuse p mark (scalarReason tag text style expected)
  | .sequence mark .. => refuse p mark (.wrongType .sequence expected)
  | .mapping mark .. => refuse p mark (.wrongType .mapping expected)
  | .alias .. | .broken => .error .cut

/-- Reads the text of any scalar. -/
def readText (root : Node) (expected : Expected) (p : Place) : Except Refusal (List Char) :=
  let p := p.follow root
  match p.node with
  | .scalar _ _ _ text _ => .ok text
  | _ => wrongKind p expected

/-- The scalar may be a number: it is plain, or a literal block tagged so. -/
def maybeNumber (tag : Option (List Char)) (style : Style) : Bool :=
  style == .plain || (style == .literal && tag == some (typeTag "int"))

/-- Reads an unsigned integer of at most `limit`. -/
def readNat (root : Node) (expected : Expected) (limit : Nat) (p : Place) : Except Refusal Nat :=
  let p := p.follow root
  match p.node with
  | .scalar mark _ tag text style =>
    match (if maybeNumber tag style then Scalar.unsigned? text else none) with
    | some n =>
      if n ≤ limit then .ok n
      else if n < UInt64.size then refuse p mark (.wrongValue (.integer n) expected)
      else wrongKind p expected
    | none => wrongKind p expected
  | _ => wrongKind p expected

/-- The format of that name. -/
def format? (name : List Char) : Option LogFormat :=
  if name = "text".toList then some .text
  else if name = "json".toList then some .json
  else none

/-- The name inside a tag that starts with `!`; a lone `!` is its own name. -/
def variant? : Option (List Char) → Option (List Char)
  | some ['!'] => some ['!']
  | some ('!' :: name) => some name
  | _ => none

/-- The value behind a tag that says it all: it has to be nothing. -/
def readUnit (p : Place) : Except Refusal Unit :=
  match p.node with
  | .scalar mark _ _ text style =>
    if style ≠ .plain then wrongKind p .nothing
    else if text.isEmpty || Scalar.isNull text then .ok ()
    else refuse p mark (.wrongValue (.string text) .null)
  | _ => wrongKind p .nothing

/-- Reads the format of log lines: its name as a scalar, or as the tag of
nothing. An unknown name in a tag is reported at the alias that led to it, or
else at the mapping `outer`. -/
def readFormat (root : Node) (outer : Place) (outerMark : Mark) (written : Place) :
    Except Refusal LogFormat :=
  let p := written.follow root
  let tagged (tag : List Char) : Except Refusal LogFormat :=
    match format? tag, written.node with
    | some format, _ => (readUnit p).map fun _ => format
    | none, .alias mark _ => refuse written mark (.unknownVariant tag)
    | none, _ => refuse outer outerMark (.unknownVariant tag)
  match p.node with
  | .scalar mark _ tag text _ =>
    match variant? tag with
    | some tag => tagged tag
    | none =>
      match format? text with
      | some format => .ok format
      | none => refuse p mark (.unknownVariant text)
  | .sequence _ _ tag _ | .mapping _ _ tag _ =>
    match variant? tag with
    | some tag => tagged tag
    | none => wrongKind p .tag
  | .alias .. | .broken => .error .cut

/-! ## Sections -/

/-- Reads a key: its text, and the step to its value. -/
def readKey (root : Node) (outer : Trail) (key : Node) : Except Refusal (List Char × Step) := do
  let text ← readText root .fieldName ⟨outer, key⟩
  let step := match key with
    | .scalar .. => Step.key text
    | _ => .unnamed
  .ok (text, step)

/-- A field of a section: its name, and how its value is put into the section. -/
structure Field (σ : Type) where
  name : String
  read : Place → σ → Except Refusal σ

/-- Reads the entries of a mapping in order. `seen` are the fields met so far. -/
def readEntries {σ : Type} (root : Node) (fields : List (Field σ)) (outer : Place) (mark : Mark) :
    List String → List (Node × Node) → σ → Except Refusal σ
  | _, [], value => .ok value
  | seen, (key, node) :: rest, value => do
    let (name, step) ← readKey root outer.trail key
    match fields.find? (fun f => f.name.toList == name) with
    | some field =>
      if seen.contains field.name then
        refuse outer mark (.duplicateField field.name)
      else
        let value ← field.read ⟨step :: outer.trail, node⟩ value
        readEntries root fields outer mark (field.name :: seen) rest value
    | none =>
      if node.isWhole then readEntries root fields outer mark seen rest value
      else .error .cut

/-- Reads a section: a mapping, or nothing at all. -/
def readSection {σ : Type} (root : Node) (name : String) (fields : Place → Mark → List (Field σ))
    (start : σ) (p : Place) : Except Refusal σ :=
  let p := p.follow root
  match p.node with
  | .mapping mark _ _ entries => readEntries root (fields p mark) p mark [] entries start
  | .scalar _ _ _ [] .plain => .ok start
  | _ => wrongKind p (.record name)

/-- The fields of the server settings. -/
def serverFields (root : Node) : List (Field ServerSettings) := [
  ⟨"host", fun p s => do
    let text ← readText root .string p
    .ok { s with host := String.ofList text }⟩,
  ⟨"port", fun p s => do
    let n ← readNat root .word16 (UInt16.size - 1) p
    .ok { s with port := UInt16.ofNat n }⟩,
  ⟨"read_timeout", fun p s => do
    let n ← readNat root .word64 (UInt64.size - 1) p
    .ok { s with readTimeout := UInt64.ofNat n }⟩,
  ⟨"write_timeout", fun p s => do
    let n ← readNat root .word64 (UInt64.size - 1) p
    .ok { s with writeTimeout := UInt64.ofNat n }⟩]

/-- The fields of the log settings in the mapping `outer`. -/
def loggingFields (root : Node) (outer : Place) (mark : Mark) : List (Field LogSettings) := [
  ⟨"level", fun p l => do
    let text ← readText root .string p
    .ok { l with level := String.ofList text }⟩,
  ⟨"format", fun p l => do
    let format ← readFormat root outer mark p
    .ok { l with format := format }⟩]

/-- Reads a path, the text of any scalar. -/
def readPath (root : Node) (p : Place) : Except Refusal Path := do
  let text ← readText root .path p
  .ok ⟨Text.Utf8.encode text⟩

/-- The fields of the configuration. -/
def configFields (root : Node) : List (Field Config) := [
  ⟨"server", fun p c => do
    let server ← readSection root "ServerConfig" (fun _ _ => serverFields root) unset.server p
    .ok { c with server := server }⟩,
  ⟨"data_dir", fun p c => do
    let path ← readPath root p
    .ok { c with dataDir := path }⟩,
  ⟨"agents_dir", fun p c => do
    let path ← readPath root p
    .ok { c with agentsDir := path }⟩,
  ⟨"logging", fun p c => do
    let logging ← readSection root "LoggingConfig" (loggingFields root) unset.logging p
    .ok { c with logging := logging }⟩]

/-- Reads the configuration that a tree describes. Fields without an entry are
not set. -/
def ofNode (root : Node) : Except Refusal Config :=
  readSection root "Config" (fun _ _ => configFields root) unset ⟨[], root⟩

end AgentHost.Config
