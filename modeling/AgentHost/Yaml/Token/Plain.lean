import AgentHost.Yaml.Token
/-!
# Plain scalars

A scalar without quotes runs on to the next `: `, ` #` or, inside brackets, the
next flow indicator. It may run over lines, as long as each is indented.
-/

namespace AgentHost.Yaml.Plain

/-- A character that means something inside brackets. -/
def isFlowIndicator (c : Char) : Bool :=
  c == ',' || c == '[' || c == ']' || c == '{' || c == '}'

/-- What stands at the cursor inside a plain scalar. -/
inductive Step where
  | finished
  | colon
  | gap
  | char (c : Char)

/-- Looks at what comes next inside a plain scalar. -/
def step (flow : Bool) : List Char → Step
  | [] => .finished
  | ':' :: rest =>
    if endsWord rest then .finished
    else match rest with
      | next :: _ =>
        if flow && (next == '?' || isFlowIndicator next) then .colon else .char ':'
      | [] => .finished
  | c :: _ =>
    if isGap c then .gap
    else if flow && isFlowIndicator c then .finished
    else .char c

/-- What was read of a plain scalar: the text, where it stops, and whether the
cursor stands on a later line. -/
structure Reading where
  text : List Char
  stop : Mark
  broken : Bool
  after : Cursor

/-- Reads on behind a gap that starts at `stop`. -/
def body (flow : Bool) (margin : Nat) (began : Mark) :
    Nat → Gap → Mark → Cursor → Except Fault Reading
  | 0, gap, stop, c => .ok ⟨[], stop, gap.broken, c⟩
  | fuel + 1, gap, stop, c =>
    match step flow c.rest with
    | .finished => .ok ⟨[], stop, gap.broken, c⟩
    | .colon => .error (c.fault .unexpectedColon .plainScalar began)
    | .char ch => do
      let after := c.skip
      let r ← body flow margin began fuel Gap.none after.mark after
      .ok { r with text := gap.text ++ ch :: r.text }
    | .gap =>
      match Gap.none.read margin c.rest c.mark with
      | .error m => .error (Cursor.fault ⟨[], m⟩ .tabViolatesIndentation .plainScalar began)
      | .ok (gap, next) =>
        if (!flow && next.mark.column < margin) || next.atDocumentIndicator
            || next.rest.head? == some '#' then
          .ok ⟨[], stop, gap.broken, next⟩
        else body flow margin began fuel gap stop next

/-- Reads a plain scalar. Lines after the first start at column `margin` or
behind it. The answer also says whether the cursor stands on a later line. -/
def read (flow : Bool) (margin : Nat) (c : Cursor) : Except Fault (Token × Bool × Cursor) := do
  let r ← body flow margin c.mark (2 * c.rest.length + 1) Gap.none c.mark c
  .ok (⟨.scalar r.text .plain, c.mark, r.stop⟩, r.broken, r.after)

end AgentHost.Yaml.Plain
