import AgentHost.Yaml.Token
/-!
# Block scalars

A scalar that starts behind `|` or `>` is the lines indented below it. Behind
the indicator may stand how deep they are indented and what becomes of the
breaks at the end. With `>` a single break between two lines that start with no
blank is a space.
-/

namespace AgentHost.Yaml.Block

/-- What becomes of the breaks at the end of the scalar. -/
inductive Chomping where
  | strip
  | clip
  | keep
  deriving DecidableEq, Repr

/-- What the indicators say. -/
structure Header where
  chomping : Chomping
  /-- How deep the lines are indented, if it is said. -/
  depth : Option Nat

/-- The chomping that a character stands for. -/
def chomping? : List Char → Option Chomping
  | '+' :: _ => some .keep
  | '-' :: _ => some .strip
  | _ => none

/-- Reads the depth, one digit that is not zero, if it is there. -/
def readDepth (began : Mark) (c : Cursor) : Except Fault (Option Nat × Cursor) :=
  match c.rest with
  | '0' :: _ => .error (c.fault .zeroIndentation .blockScalar began)
  | d :: _ => .ok (if d.isDigit then (some (d.toNat - '0'.toNat), c.skip) else (none, c))
  | [] => .ok (none, c)

/-- Reads the indicators behind `|` or `>`, in either order. -/
def readHeader (began : Mark) (c : Cursor) : Except Fault (Header × Cursor) :=
  match chomping? c.rest with
  | some chomping =>
    (readDepth began c.skip).map fun (depth, after) => (⟨chomping, depth⟩, after)
  | none => do
    let (depth, after) ← readDepth began c
    match depth, chomping? after.rest with
    | some _, some chomping => .ok (⟨chomping, depth⟩, after.skip)
    | _, _ => .ok (⟨.clip, depth⟩, after)

/-- What was read of the empty lines in front of a line: their breaks, where
they stop, the deepest column reached, and the cursor past the indentation. -/
structure Blank where
  breaks : List Char
  stop : Mark
  deepest : Nat
  after : Cursor

/-- Reads empty lines and the indentation behind them, up to the column `depth`
if it is known. A tab in the indentation is refused; the answer is then its
place. -/
def readBlank (depth : Option Nat) : Blank → List Char → Mark → Except Mark Blank
  | b, [], m => .ok { b with deepest := max b.deepest m.column, after := ⟨[], m⟩ }
  | b, c :: rest, m =>
    let inside := depth.all (m.column < ·)
    if inside && c == ' ' then readBlank depth b rest m.next
    else
      let b := { b with deepest := max b.deepest m.column }
      if inside && c == '\t' then .error m
      else match c, rest with
        | '\r', '\n' :: rest =>
          let next := m.newLine 2
          readBlank depth { b with breaks := b.breaks ++ ['\n'], stop := next } rest next
        | c, rest =>
          if isBreak c then
            let next := m.newLine 1
            readBlank depth { b with breaks := b.breaks ++ breakText c, stop := next } rest next
          else .ok { b with after := ⟨c :: rest, m⟩ }

/-- Reads the empty lines at the cursor. -/
def blankLines (began : Mark) (depth : Option Nat) (c : Cursor) : Except Fault Blank :=
  match readBlank depth ⟨[], c.mark, 0, c⟩ c.rest c.mark with
  | .ok b => .ok b
  | .error m => .error (Cursor.fault ⟨[], m⟩ .tabForIndentation .blockScalar began)

/-- What stands between two lines of the scalar: the break of the first one and
those of the empty lines behind it. A folded scalar turns a lone line feed
between two lines that start with no blank into a space. -/
def between (folded : Bool) (first : List Char) (breaks : List Char) : List Char :=
  if folded && first = ['\n'] then
    if breaks.isEmpty then [' '] else breaks
  else first ++ breaks

/-- What was read of a block scalar: the text, the break behind the last line,
the breaks of the empty lines behind it, and where it stops. -/
structure Reading where
  text : List Char
  lastBreak : List Char
  breaks : List Char
  stop : Mark
  after : Cursor

/-- Reads the lines at column `depth`. `lastBreak` is the break behind the line
before, `blank` the empty lines behind that, `indented` says whether that line
starts with a blank. -/
def lines (folded : Bool) (began : Mark) (depth : Nat) :
    Nat → List Char → Bool → Blank → Except Fault Reading
  | 0, lastBreak, _, b => .ok ⟨[], lastBreak, b.breaks, b.stop, b.after⟩
  | fuel + 1, lastBreak, indented, b =>
    let c := b.after
    match c.rest with
    | [] => .ok ⟨[], lastBreak, b.breaks, b.stop, c⟩
    | first :: _ =>
      if c.mark.column = depth then do
        let blank := isBlank first
        let gap := between (folded && !indented && !blank) lastBreak b.breaks
        let (line, ending) := Cursor.takeWhile (fun ch => !isBreak ch) c.rest c.mark
        let (newBreak, next) := ending.takeBreak
        let b ← blankLines began (some depth) next
        let r ← lines folded began depth fuel newBreak blank b
        .ok { r with text := gap ++ line ++ r.text }
      else .ok ⟨[], lastBreak, b.breaks, b.stop, c⟩

/-- Reads a block scalar; the cursor stands on its indicator. `margin` is the
least column at which the lines may start. -/
def read (folded : Bool) (margin : Nat) (c : Cursor) : Except Fault (Token × Cursor) := do
  let began := c.mark
  let (header, after) ← readHeader began c.skip
  let tail := after.skipBlanks.skipComment
  if !endsLine tail.rest then
    .error (tail.fault .expectedCommentOrBreak .blockScalar began)
  let first := tail.takeBreak.2
  let depth := header.depth.map (margin - 1 + ·)
  let b ← blankLines began depth first
  let depth := depth.getD (max (max b.deepest margin) 1)
  let r ← lines folded began depth (c.rest.length + 1) [] false b
  let ending := match header.chomping with
    | .strip => []
    | .clip => r.lastBreak
    | .keep => r.lastBreak ++ r.breaks
  let style := if folded then Style.folded else .literal
  .ok (⟨.scalar (r.text ++ ending) style, began, r.stop⟩, r.after)

end AgentHost.Yaml.Block
