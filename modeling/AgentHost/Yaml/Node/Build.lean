import AgentHost.Yaml.Node
/-!
# From tokens to a tree

`Document.ofTokens` builds the tree of the first document from tokens. Each
function reads one construct and answers what it built, together with the tokens
behind it or the fault that stopped it. After a fault what was built ends in
`broken`.
-/

namespace AgentHost.Yaml

namespace Node

/-- What is still to be read, and what was declared so far. -/
structure Source where
  tokens : List Token
  /-- Why there are no tokens behind the last. -/
  cut : Fault
  /-- What the handles of tags stand for. -/
  handles : List (List Char × List Char)
  /-- The numbers of the anchors by name. A name that is used again gets a new
  number, and two names may share one. -/
  anchors : List (List Char × Nat)

namespace Source

/-- The next token. -/
def peek (s : Source) : Except Fault Token :=
  match s.tokens with
  | t :: _ => .ok t
  | [] => .error s.cut

/-- Past the next token. -/
def skip (s : Source) : Source := { s with tokens := s.tokens.drop 1 }

/-- Gives a number to an anchor: how many names there are. -/
def bindAnchor (s : Source) : Option (List Char) → Option Nat × Source
  | none => (none, s)
  | some name =>
    let slot := s.anchors.length
    (some slot, { s with anchors := (name, slot) :: s.anchors.filter (·.1 ≠ name) })

end Source

/-- What was built, and how to go on. -/
abbrev Built (α : Type) := α × Except Fault Source

/-- Nothing was built. -/
def cutOff (fault : Fault) : Built Node := (.broken, .error fault)

/-- Puts an item in front of those that are read behind it. -/
def Built.cons {α : Type} (first : Built α) (more : Source → Built (List α)) : Built (List α) :=
  match first with
  | (a, .error fault) => ([a], .error fault)
  | (a, .ok s) => (a :: (more s).1, (more s).2)

/-- Reads a value behind a key. -/
def Built.withValue (key : Built Node) (value : Source → Built Node) : Built (Node × Node) :=
  match key with
  | (k, .error fault) => ((k, .broken), .error fault)
  | (k, .ok s) => ((k, (value s).1), (value s).2)

/-- A fault at a token, met in a construct that began elsewhere. -/
def faultAt (t : Token) (problem : Problem) (construct : Construct) (began : Mark) : Fault :=
  .malformed problem t.start (some (construct, began))

/-! ## What stands in front of a node -/

/-- The anchor and the tag of a node, and where it starts. -/
structure Properties where
  start : Mark
  anchor : Option (List Char)
  tag : Option (List Char)

/-- The full name of a tag. -/
def resolveTag (s : Source) (began : Mark) (t : Token) (name : TagName) :
    Except Fault (List Char) :=
  if name.handle.isEmpty then .ok name.suffix
  else match s.handles.lookup name.handle with
    | some beginning => .ok (beginning ++ name.suffix)
    | none => .error (faultAt t .undefinedTagHandle .node began)

/-- The name of an anchor, if the token is one. -/
def anchorName? (t : Token) : Option (List Char) :=
  match t.kind with
  | .anchor name => some name
  | _ => none

/-- The name of a tag, if the token is one. -/
def tagName? (t : Token) : Option TagName :=
  match t.kind with
  | .tag name => some name
  | _ => none

/-- Reads an anchor and a tag in either order, each of them if it is there. -/
def properties (s : Source) : Except Fault (Properties × Source) := do
  let first ← s.peek
  let began := first.start
  match anchorName? first, tagName? first with
  | some anchor, _ =>
    let s := s.skip
    let second ← s.peek
    match tagName? second with
    | some name =>
      let s := s.skip
      let _ ← s.peek
      let tag ← resolveTag s began second name
      .ok (⟨began, some anchor, some tag⟩, s)
    | none => .ok (⟨began, some anchor, none⟩, s)
  | none, some name =>
    let s := s.skip
    let second ← s.peek
    match anchorName? second with
    | some anchor =>
      let s := s.skip
      let _ ← s.peek
      let tag ← resolveTag s began first name
      .ok (⟨began, some anchor, some tag⟩, s)
    | none =>
      let tag ← resolveTag s began first name
      .ok (⟨began, none, some tag⟩, s)
  | none, none => .ok (⟨began, none, none⟩, s)

/-- The tag of a written scalar: a lone `!` says nothing. -/
def scalarTag : Option (List Char) → Option (List Char)
  | some ['!'] => none
  | tag => tag

/-! ## Nodes -/

/-- A token that ends an entry of a block mapping. -/
def endsBlockEntry (k : Token.Kind) : Bool := k == .key || k == .value || k == .blockEnd

/-- A token that ends an entry between brackets. -/
def endsFlowEntry (close : Token.Kind) (k : Token.Kind) : Bool := k == .flowEntry || k == close

/-- The last entry of a mapping whose next key is missing. -/
def missingEntry (fault : Fault) : Built (Node × Node) := ((.broken, .broken), .error fault)

mutual

/-- Reads a node. `block` says whether it may be a block collection, `indentless`
whether it may be a sequence that is indented no deeper than its key. -/
def node (block indentless : Bool) : Nat → Source → Built Node
  | 0, s => cutOff s.cut
  | fuel + 1, s =>
    match s.peek with
    | .error fault => cutOff fault
    | .ok t =>
      match t.kind with
      | .alias name =>
        match s.anchors.lookup name with
        | some slot => (.alias t.start slot, .ok s.skip)
        | none => cutOff (.unknownAnchor t.start)
      | _ =>
        match properties s with
        | .error fault => cutOff fault
        | .ok (p, s) => content block indentless p fuel s

/-- Reads a node behind its properties. -/
def content (block indentless : Bool) (p : Properties) : Nat → Source → Built Node
  | 0, s => cutOff s.cut
  | fuel + 1, s =>
    match s.peek with
    | .error fault => cutOff fault
    | .ok t =>
      let (slot, s) := s.bindAnchor p.anchor
      let sequence (b : Built (List Node)) : Built Node := (.sequence p.start slot p.tag b.1, b.2)
      let mapping (b : Built (List (Node × Node))) : Built Node :=
        (.mapping p.start slot p.tag b.1, b.2)
      let other : Built Node :=
        if p.anchor.isSome || p.tag.isSome then
          (.scalar p.start slot p.tag [] .plain, .ok s)
        else
          cutOff (faultAt t .expectedNodeContent (if block then .blockNode else .flowNode) p.start)
      match t.kind with
      | .scalar text style => (.scalar p.start slot (scalarTag p.tag) text style, .ok s.skip)
      | .flowSequenceStart => sequence (flowItems true t.start fuel s.skip)
      | .flowMappingStart => mapping (flowEntries true t.start fuel s.skip)
      | .blockEntry => if indentless then sequence (indentlessItems fuel s) else other
      | .blockSequenceStart => if block then sequence (blockItems t.start fuel s.skip) else other
      | .blockMappingStart => if block then mapping (blockEntries t.start fuel s.skip) else other
      | _ => other

/-- Reads the items of a block sequence. -/
def blockItems (began : Mark) : Nat → Source → Built (List Node)
  | 0, s => ([.broken], .error s.cut)
  | fuel + 1, s =>
    match s.peek with
    | .error fault => ([.broken], .error fault)
    | .ok t =>
      match t.kind with
      | .blockEntry =>
        (blockItem (fun k => k == .blockEntry || k == .blockEnd) t.stop fuel s.skip).cons
          (blockItems began fuel)
      | .blockEnd => ([], .ok s.skip)
      | _ => ([.broken], .error (faultAt t .expectedDash .blockCollection began))

/-- Reads the items of a sequence that is indented no deeper than its key. -/
def indentlessItems : Nat → Source → Built (List Node)
  | 0, s => ([.broken], .error s.cut)
  | fuel + 1, s =>
    match s.peek with
    | .error fault => ([.broken], .error fault)
    | .ok t =>
      match t.kind with
      | .blockEntry =>
        (blockItem (fun k => k == .blockEntry || endsBlockEntry k) t.stop fuel s.skip).cons
          (indentlessItems fuel)
      | _ => ([], .ok s)

/-- Reads what stands behind a dash: nothing, where a token follows that ends the
item. -/
def blockItem (ends : Token.Kind → Bool) (stop : Mark) : Nat → Source → Built Node
  | 0, s => cutOff s.cut
  | fuel + 1, s =>
    match s.peek with
    | .error fault => cutOff fault
    | .ok t => if ends t.kind then (.empty stop, .ok s) else node true false fuel s

/-- Reads the entries of a block mapping. -/
def blockEntries (began : Mark) : Nat → Source → Built (List (Node × Node))
  | 0, s => ([(.broken, .broken)], .error s.cut)
  | fuel + 1, s =>
    match s.peek with
    | .error fault => ([(.broken, .broken)], .error fault)
    | .ok t =>
      match t.kind with
      | .key =>
        ((blockPart t.stop fuel s.skip).withValue (blockValue fuel)).cons (blockEntries began fuel)
      | .blockEnd => ([], .ok s.skip)
      | _ => ([(.broken, .broken)], .error (faultAt t .expectedKey .blockMapping began))

/-- Reads a key or a value behind its indicator, which stops at `stop`. -/
def blockPart (stop : Mark) : Nat → Source → Built Node
  | 0, s => cutOff s.cut
  | fuel + 1, s =>
    match s.peek with
    | .error fault => cutOff fault
    | .ok t => if endsBlockEntry t.kind then (.empty stop, .ok s) else node true true fuel s

/-- Reads the value of an entry, if the colon is there. -/
def blockValue : Nat → Source → Built Node
  | 0, s => cutOff s.cut
  | fuel + 1, s =>
    match s.peek with
    | .error fault => cutOff fault
    | .ok t =>
      if t.kind == .value then blockPart t.stop fuel s.skip else (.empty t.start, .ok s)

/-- Reads the items of a sequence between brackets. -/
def flowItems (first : Bool) (began : Mark) : Nat → Source → Built (List Node)
  | 0, s => ([.broken], .error s.cut)
  | fuel + 1, s =>
    match s.peek with
    | .error fault => ([.broken], .error fault)
    | .ok t =>
      if t.kind == .flowSequenceEnd then ([], .ok s.skip)
      else if first then (flowItem fuel s).cons (flowItems false began fuel)
      else if t.kind == .flowEntry then
        match s.skip.peek with
        | .error fault => ([.broken], .error fault)
        | .ok u =>
          if u.kind == .flowSequenceEnd then ([], .ok s.skip.skip)
          else (flowItem fuel s.skip).cons (flowItems false began fuel)
      else ([.broken], .error (faultAt t .expectedCommaOrBracket .flowSequence began))

/-- Reads an item between brackets: a node, or a mapping of one entry. -/
def flowItem : Nat → Source → Built Node
  | 0, s => cutOff s.cut
  | fuel + 1, s =>
    match s.peek with
    | .error fault => cutOff fault
    | .ok t =>
      if t.kind == .key then
        let entries := ((pairKey fuel s.skip).withValue
          (flowValue .flowSequenceEnd fuel)).cons pairEnd
        (.mapping t.start none none entries.1, entries.2)
      else node false false fuel s

/-- Reads the key of an entry that stands alone between brackets. A token in its
place that ends the key is passed over. -/
def pairKey : Nat → Source → Built Node
  | 0, s => cutOff s.cut
  | fuel + 1, s =>
    match s.peek with
    | .error fault => cutOff fault
    | .ok t =>
      if t.kind == .value || endsFlowEntry .flowSequenceEnd t.kind then (.empty t.stop, .ok s.skip)
      else node false false fuel s

/-- The end of an entry that stands alone: a token has to follow. -/
def pairEnd (s : Source) : Built (List (Node × Node)) :=
  match s.peek with
  | .error fault => ([(.broken, .broken)], .error fault)
  | .ok _ => ([], .ok s)

/-- Reads the value of an entry between brackets, if the colon is there. -/
def flowValue (close : Token.Kind) : Nat → Source → Built Node
  | 0, s => cutOff s.cut
  | fuel + 1, s =>
    match s.peek with
    | .error fault => cutOff fault
    | .ok t =>
      if t.kind == .value then
        match s.skip.peek with
        | .error fault => cutOff fault
        | .ok u =>
          if endsFlowEntry close u.kind then (.empty u.start, .ok s.skip)
          else node false false fuel s.skip
      else (.empty t.start, .ok s)

/-- Reads the entries of a mapping between braces. -/
def flowEntries (first : Bool) (began : Mark) : Nat → Source → Built (List (Node × Node))
  | 0, s => ([(.broken, .broken)], .error s.cut)
  | fuel + 1, s =>
    match s.peek with
    | .error fault => ([(.broken, .broken)], .error fault)
    | .ok t =>
      if t.kind == .flowMappingEnd then ([], .ok s.skip)
      else if first then (flowEntry fuel s).cons (flowEntries false began fuel)
      else if t.kind == .flowEntry then
        match s.skip.peek with
        | .error fault => ([(.broken, .broken)], .error fault)
        | .ok u =>
          if u.kind == .flowMappingEnd then ([], .ok s.skip.skip)
          else (flowEntry fuel s.skip).cons (flowEntries false began fuel)
      else ([(.broken, .broken)], .error (faultAt t .expectedCommaOrBrace .flowMapping began))

/-- Reads an entry between braces. -/
def flowEntry : Nat → Source → Built (Node × Node)
  | 0, s => missingEntry s.cut
  | fuel + 1, s =>
    match s.peek with
    | .error fault => missingEntry fault
    | .ok t =>
      if t.kind == .key then
        (flowKey fuel s.skip).withValue (flowValue .flowMappingEnd fuel)
      else (node false false fuel s).withValue noValue

/-- Reads a key between braces behind its indicator. -/
def flowKey : Nat → Source → Built Node
  | 0, s => cutOff s.cut
  | fuel + 1, s =>
    match s.peek with
    | .error fault => cutOff fault
    | .ok t =>
      if t.kind == .value || endsFlowEntry .flowMappingEnd t.kind then (.empty t.start, .ok s)
      else node false false fuel s

/-- The value of a key without a colon: a token has to follow. -/
def noValue (s : Source) : Built Node :=
  match s.peek with
  | .error fault => cutOff fault
  | .ok t => (.empty t.start, .ok s)

end

end Node

/-! ## Documents -/

namespace Document

open Node (Source Built)

/-- What handles stand for when nothing is declared. -/
def defaultHandles : List (List Char × List Char) :=
  [(['!'], ['!']), (['!', '!'], "tag:yaml.org,2002:".toList)]

/-- Reads the directives in front of a document. `versioned` says that a version
was among them already. -/
def directives (versioned : Bool) : Nat → Source → Except Fault Source
  | 0, s => .ok s
  | fuel + 1, s => do
    let t ← s.peek
    match t.kind with
    | .versionDirective major minor =>
      if versioned then
        .error (.malformed .duplicateVersionDirective t.start none)
      if major ≠ 1 ∨ (minor ≠ 1 ∧ minor ≠ 2) then
        .error (.malformed .incompatibleVersion t.start none)
      directives true fuel s.skip
    | .tagDirective handle beginning =>
      if (s.handles.lookup handle).isSome then
        .error (.malformed .duplicateTagDirective t.start none)
      directives versioned fuel { s.skip with handles := s.handles ++ [(handle, beginning)] }
    | _ => .ok s

/-- The root of a document that starts without `---`. -/
def bareRoot (fuel : Nat) (s : Source) : Built Node :=
  Node.node true false fuel { s with handles := defaultHandles }

/-- The root of a document that starts with `---`, behind its directives. -/
def markedRoot (fuel : Nat) (s : Source) : Built Node :=
  match directives false (s.tokens.length + 1) s with
  | .error fault => Node.cutOff fault
  | .ok s =>
    match s.peek with
    | .error fault => Node.cutOff fault
    | .ok t =>
      if t.kind == .documentStart then
        let s := { s.skip with handles := s.handles ++ defaultHandles }
        match s.peek with
        | .error fault => Node.cutOff fault
        | .ok u =>
          match u.kind with
          | .versionDirective .. | .tagDirective .. | .documentStart | .documentEnd | .streamEnd =>
            (Node.empty u.start, .ok s)
          | _ => Node.node true false fuel s
      else Node.cutOff (.malformed .expectedDocumentStart t.start none)

/-- Something follows that is not an end of a document or of the text. -/
def followedBy (s : Source) : Bool :=
  match s.tokens.find? (fun t => t.kind != .documentEnd) with
  | some t => t.kind != .streamEnd
  | none => true

/-- The document behind its root. -/
def finish : Built Node → Document
  | (root, .error fault) => ⟨root, some fault, false⟩
  | (root, .ok s) =>
    match s.peek with
    | .error fault => ⟨root, some fault, false⟩
    | .ok _ => ⟨root, none, followedBy s⟩

/-- The document of a sequence of tokens, which ends in `cut` unless the last
token is the end of the text. A text without a document has an empty one. -/
def ofTokens (tokens : List Token) (cut : Option Fault) : Document :=
  let s : Source := ⟨tokens, cut.getD (.character 0), [], []⟩
  let fuel := 4 * tokens.length + 4
  match s.peek with
  | .error fault => ⟨.broken, some fault, false⟩
  | .ok t =>
    match t.kind with
    | .streamEnd => ⟨Node.empty t.start, none, false⟩
    | .versionDirective .. | .tagDirective .. | .documentStart => finish (markedRoot fuel s)
    | _ => finish (bareRoot fuel s)

end Document

end AgentHost.Yaml
