import AgentHost.Yaml.Token.Block
import AgentHost.Yaml.Token.Directive
import AgentHost.Yaml.Token.Plain
import AgentHost.Yaml.Token.Quoted
/-!
# From text to tokens

`Token.scan` cuts a text into tokens. Most tokens stand for themselves. Two kinds
do not: indentation opens and closes block collections, and a key without an
indicator is known as a key only when its colon is met, which may be some tokens
later. Such a key is a `Candidate` until then, and tokens from it on are held
back.

Where the text cannot be cut further, the answer is the tokens in front of that
place and the fault. Tokens that a candidate still holds back are not among them.
-/

namespace AgentHost.Yaml

namespace Token

/-- A place where a key without an indicator may have begun. -/
structure Candidate where
  /-- The number of the token that would be the key's first. -/
  number : Nat
  mark : Mark
  /-- Nothing but a key may stand here. -/
  required : Bool

/-- How far the scan has come. -/
structure Scan where
  cursor : Cursor
  /-- Columns of the block collections that are open, innermost first. -/
  columns : List Nat
  /-- A key without an indicator may start here. -/
  keyAllowed : Bool
  /-- The candidate of the innermost flow collection, or of the block. -/
  candidate : Option Candidate
  /-- The candidates outside the flow collections that are open. -/
  outer : List (Option Candidate)
  /-- Tokens that may be read, last first, and how many there are. -/
  released : List Token
  count : Nat
  /-- Tokens that are held back, first first. -/
  held : List Token

namespace Scan

/-- The scan of a text before its first token. -/
def start (text : List Char) : Scan :=
  ⟨⟨text, Mark.start⟩, [], true, none, [], [], 0, []⟩

/-- The scan is inside brackets. -/
def inFlow (s : Scan) : Bool := !s.outer.isEmpty

/-- The least column of what may stand inside the innermost block collection. -/
def margin (s : Scan) : Nat :=
  match s.columns with
  | [] => 0
  | column :: _ => column + 1

/-- Every candidate. -/
def candidates (s : Scan) : List Candidate :=
  (s.candidate :: s.outer).filterMap id

/-- The number of the next token. -/
def nextNumber (s : Scan) : Nat := s.count + s.held.length

/-- A token behind the others. -/
def push (s : Scan) (t : Token) : Scan := { s with held := s.held ++ [t] }

/-- A token that has no width. -/
def pushMark (s : Scan) (kind : Kind) : Scan := s.push ⟨kind, s.cursor.mark, s.cursor.mark⟩

/-- A token in front of the token of that number. -/
def insert (s : Scan) (number : Nat) (t : Token) : Scan :=
  let n := number - s.count
  { s with held := s.held.take n ++ t :: s.held.drop n }

/-- A fault at the cursor with no more to say about it. -/
def fault {α : Type} (s : Scan) (problem : Problem) : Except Fault α :=
  .error (.malformed problem s.cursor.mark none)

/-- The fault of a key that had to be one and is not. -/
def missingColon {α : Type} (s : Scan) (k : Candidate) : Except Fault α :=
  .error (s.cursor.fault .expectedColon .simpleKey k.mark)

/-! ## Candidates -/

/-- A key has to lie on one line and within 1024 characters. -/
def isStale (s : Scan) (k : Candidate) : Bool :=
  k.mark.line < s.cursor.mark.line || k.mark.index + 1024 < s.cursor.mark.index

/-- Drops a candidate that has become stale. -/
def keepFresh (s : Scan) : Option Candidate → Option Candidate
  | some k => if s.isStale k then none else some k
  | none => none

/-- Drops the candidates that have become stale. A stale one that had to be a key
is a fault; of several, the outermost. -/
def dropStale (s : Scan) : Except Fault Scan :=
  match s.candidates.reverse.find? (fun k => s.isStale k && k.required) with
  | some k => s.missingColon k
  | none =>
    .ok { s with
      candidate := s.keepFresh s.candidate
      outer := s.outer.map s.keepFresh }

/-- Gives up the innermost candidate. -/
def dropCandidate (s : Scan) : Except Fault Scan :=
  match s.candidate with
  | some k => if k.required then s.missingColon k else .ok { s with candidate := none }
  | none => .ok s

/-- Notes that a key may start at the cursor. -/
def noteCandidate (s : Scan) : Except Fault Scan :=
  if s.keyAllowed then do
    let required := !s.inFlow && s.margin == s.cursor.mark.column + 1
    let s ← s.dropCandidate
    .ok { s with candidate := some ⟨s.nextNumber, s.cursor.mark, required⟩ }
  else .ok s

/-- Releases tokens up to the first that may still get a key in front of it. -/
def release (s : Scan) : Scan :=
  let free := match (s.candidates.map (·.number)).min? with
    | some n => n - s.count
    | none => s.held.length
  { s with
    released := (s.held.take free).reverse ++ s.released
    count := s.count + (s.held.take free).length
    held := s.held.drop free }

/-! ## Indentation -/

/-- Opens a block collection at a column, in front of the token of that number,
unless it is open already. -/
def openBlock (s : Scan) (column number : Nat) (kind : Kind) (mark : Mark) : Scan :=
  if !s.inFlow && s.margin ≤ column then
    { s with columns := column :: s.columns }.insert number ⟨kind, mark, mark⟩
  else s

/-- Closes the block collections that start at column `limit` or behind it. -/
def closeBlocks (s : Scan) (limit : Nat) : Scan :=
  if s.inFlow then s
  else
    let closed := s.columns.takeWhile (limit ≤ ·)
    let mark := s.cursor.mark
    { s with
      columns := s.columns.dropWhile (limit ≤ ·)
      held := s.held ++ closed.map fun _ => ⟨.blockEnd, mark, mark⟩ }

/-! ## Between tokens -/

/-- Passes over blanks, comments and breaks. A tab counts as a blank where no key
may start. Behind a break of the block a key may. -/
def toNextToken (s : Scan) : Nat → Scan
  | 0 => s
  | fuel + 1 =>
    let c := if s.cursor.mark.index == 0 && s.cursor.rest.head? == some '\ufeff'
      then s.cursor.skip else s.cursor
    let tabs := s.inFlow || !s.keyAllowed
    let c := Cursor.skipWhile (fun ch => ch == ' ' || (tabs && ch == '\t')) c.rest c.mark
    let c := c.skipComment
    if c.rest.head?.any isBreak then
      { s with cursor := c.takeBreak.2, keyAllowed := s.keyAllowed || !s.inFlow }.toNextToken fuel
    else { s with cursor := c }

/-! ## The tokens -/

/-- Adds a token of some characters. -/
def take (s : Scan) (kind : Kind) (width : Nat) : Scan :=
  let after := s.cursor.advance width
  { s.push ⟨kind, s.cursor.mark, after.mark⟩ with cursor := after }

/-- Adds a token that has been read. -/
def accept (s : Scan) (t : Token) (after : Cursor) : Scan :=
  { s.push t with cursor := after }

/-- The end of the text, which counts as the start of a line. -/
def takeEnd (s : Scan) : Except Fault Scan := do
  let m := s.cursor.mark
  let m := if m.column = 0 then m else m.newLine 0
  let s ← ({ s with cursor := ⟨[], m⟩ }.closeBlocks 0).dropCandidate
  .ok ({ s with keyAllowed := false }.pushMark .streamEnd)

/-- A directive or a line between documents, which closes all blocks. -/
def betweenDocuments (s : Scan) : Except Fault Scan := do
  let s ← (s.closeBlocks 0).dropCandidate
  .ok { s with keyAllowed := false }

/-- An opening bracket. -/
def openFlow (s : Scan) (kind : Kind) : Except Fault Scan := do
  let s ← s.noteCandidate
  .ok { s.take kind 1 with
    keyAllowed := true
    outer := s.candidate :: s.outer
    candidate := none }

/-- A closing bracket. -/
def closeFlow (s : Scan) (kind : Kind) : Except Fault Scan := do
  let s ← s.dropCandidate
  let s := match s.outer with
    | [] => s
    | k :: outer => { s with candidate := k, outer := outer }
  .ok { s.take kind 1 with keyAllowed := false }

/-- A comma inside brackets. -/
def takeFlowEntry (s : Scan) : Except Fault Scan := do
  let s ← s.dropCandidate
  .ok { s.take .flowEntry 1 with keyAllowed := true }

/-- A dash in front of an entry. -/
def takeBlockEntry (s : Scan) : Except Fault Scan := do
  if !s.inFlow && !s.keyAllowed then
    s.fault .blockEntryNotAllowed
  let m := s.cursor.mark
  let s ← (s.openBlock m.column s.nextNumber .blockSequenceStart m).dropCandidate
  .ok { s.take .blockEntry 1 with keyAllowed := true }

/-- A question mark in front of a key. -/
def takeKey (s : Scan) : Except Fault Scan := do
  if !s.inFlow && !s.keyAllowed then
    s.fault .mappingKeyNotAllowed
  let m := s.cursor.mark
  let s ← (s.openBlock m.column s.nextNumber .blockMappingStart m).dropCandidate
  .ok { s.take .key 1 with keyAllowed := !s.inFlow }

/-- A colon in front of a value. With a candidate the key began there; otherwise
the key is empty, or has an indicator of its own. -/
def takeValue (s : Scan) : Except Fault Scan :=
  match s.candidate with
  | some k =>
    let s := s.insert k.number ⟨.key, k.mark, k.mark⟩
    let s := s.openBlock k.mark.column k.number .blockMappingStart k.mark
    .ok { s.take .value 1 with candidate := none, keyAllowed := false }
  | none => do
    if !s.inFlow && !s.keyAllowed then
      s.fault .mappingValueNotAllowed
    let m := s.cursor.mark
    let s := s.openBlock m.column s.nextNumber .blockMappingStart m
    .ok { s.take .value 1 with keyAllowed := !s.inFlow }

/-- A tag, an anchor, an alias or a quoted scalar, which may be or start a key. -/
def takeNodePart (s : Scan) (read : Cursor → Except Fault (Token × Cursor)) :
    Except Fault Scan := do
  let s ← s.noteCandidate
  let (t, after) ← read s.cursor
  .ok { s.accept t after with keyAllowed := false }

/-- A block scalar. -/
def takeBlockScalar (s : Scan) (folded : Bool) : Except Fault Scan := do
  let s ← s.dropCandidate
  let (t, after) ← Block.read folded s.margin s.cursor
  .ok { s.accept t after with keyAllowed := true }

/-- A plain scalar. -/
def takePlain (s : Scan) : Except Fault Scan := do
  let s ← s.noteCandidate
  let (t, broken, after) ← Plain.read s.inFlow s.margin s.cursor
  .ok { s.accept t after with keyAllowed := broken }

/-- A plain scalar may start with this character, whatever is behind it. -/
def startsPlain (c : Char) : Bool :=
  !isGap c && !"-?:,[]\x7b\x7d#&*!|>'\"%@`".toList.contains c

/-- Reads the token at the cursor by its first characters. -/
def takeToken (s : Scan) : Except Fault Scan :=
  match s.cursor.rest with
  | [] => s.takeEnd
  | c :: rest =>
    if s.cursor.atDocumentIndicator then do
      let s ← s.betweenDocuments
      .ok (s.take (if c = '-' then .documentStart else .documentEnd) 3)
    else if c = '%' ∧ s.cursor.mark.column = 0 then do
      let s ← s.betweenDocuments
      let (t, after) ← Directive.read s.cursor
      .ok (s.accept t after)
    else
      let alone := s.inFlow || endsWord rest
      match c with
      | '[' => s.openFlow .flowSequenceStart
      | '{' => s.openFlow .flowMappingStart
      | ']' => s.closeFlow .flowSequenceEnd
      | '}' => s.closeFlow .flowMappingEnd
      | ',' => s.takeFlowEntry
      | '-' => if endsWord rest then s.takeBlockEntry else s.takePlain
      | '?' => if alone then s.takeKey else s.takePlain
      | ':' => if alone then s.takeValue else s.takePlain
      | '*' => s.takeNodePart (Tag.readAnchor true)
      | '&' => s.takeNodePart (Tag.readAnchor false)
      | '!' => s.takeNodePart (Tag.read s.inFlow)
      | '\'' => s.takeNodePart (Quoted.read false)
      | '"' => s.takeNodePart (Quoted.read true)
      | c =>
        if (c = '|' ∨ c = '>') ∧ !s.inFlow then s.takeBlockScalar (c == '>')
        else if startsPlain c then s.takePlain
        else .error (s.cursor.fault .cannotStartToken .nextToken s.cursor.mark)

/-- Reads the next token and the block ends in front of it. -/
def next (s : Scan) : Except Fault Scan := do
  let s ← (s.toNextToken (s.cursor.rest.length + 1)).dropStale
  let s ← (s.closeBlocks (s.cursor.mark.column + 1)).takeToken
  let s ← s.dropStale
  .ok s.release

/-- The end of the text has been read. -/
def isFinished (s : Scan) : Bool :=
  match s.released with
  | t :: _ => t.kind == .streamEnd
  | [] => false

/-- Reads tokens to the end of the text, or to a fault. -/
def run : Nat → Scan → List Token × Option Fault
  | 0, s => (s.released.reverse, none)
  | fuel + 1, s =>
    if s.isFinished then (s.released.reverse, none)
    else match s.next with
      | .error fault => (s.released.reverse, some fault)
      | .ok s => run fuel s

end Scan

/-- The tokens of a text, up to its end or to the first fault. -/
def scan (text : List Char) : List Token × Option Fault :=
  match forbiddenAt? text with
  | some offset => ([], some (.character offset))
  | none => Scan.run (text.length + 2) (Scan.start text)

end Token

end AgentHost.Yaml
