import AgentHost.Yaml.Token
/-!
# Quoted scalars

A text between apostrophes stands as it is, but that two apostrophes are one. A
text between double quotes may hold escapes, and a backslash at the end of a line
joins the next line to it. In both, a gap that runs over lines is folded.
-/

namespace AgentHost.Yaml.Quoted

/-- What follows the backslash of an escape: a character, or so many
hexadecimal digits of one. -/
inductive Escape where
  | char (c : Char)
  | digits (count : Nat)

/-- The escapes by their letter. -/
def escape? : Char → Option Escape
  | '0' => some (.char '\x00')
  | 'a' => some (.char '\x07')
  | 'b' => some (.char '\x08')
  | 't' => some (.char '\t')
  | '\t' => some (.char '\t')
  | 'n' => some (.char '\n')
  | 'v' => some (.char '\x0b')
  | 'f' => some (.char '\x0c')
  | 'r' => some (.char '\r')
  | 'e' => some (.char '\x1b')
  | ' ' => some (.char ' ')
  | '"' => some (.char '"')
  | '/' => some (.char '/')
  | '\\' => some (.char '\\')
  | 'N' => some (.char '\u0085')
  | '_' => some (.char '\u00a0')
  | 'L' => some (.char '\u2028')
  | 'P' => some (.char '\u2029')
  | 'x' => some (.digits 2)
  | 'u' => some (.digits 4)
  | 'U' => some (.digits 8)
  | _ => none

/-- The value of so many hexadecimal digits at the front of a text. -/
def hexNumber? (value : Nat) : Nat → List Char → Option Nat
  | 0, _ => some value
  | _ + 1, [] => none
  | n + 1, c :: rest =>
    match hexValue? c with
    | some d => hexNumber? (value * 16 + d) n rest
    | none => none

/-- The character of a code point, if it has one. -/
def codePoint? (n : Nat) : Option Char :=
  if (0xD800 ≤ n ∧ n ≤ 0xDFFF) ∨ 0x10FFFF < n then none else some (Char.ofNat n)

/-- Reads the escape at the cursor, which stands on its backslash. -/
def readEscape (began : Mark) (c : Cursor) : Except Fault (Char × Cursor) :=
  match (c.rest.drop 1).head?.bind escape? with
  | none => .error (c.fault .unknownEscape .escape began)
  | some (.char ch) => .ok (ch, c.advance 2)
  | some (.digits n) =>
    let digits := c.advance 2
    match hexNumber? 0 n digits.rest with
    | none => .error (digits.fault .expectedHexadecimal .escape began)
    | some value =>
      match codePoint? value with
      | none => .error (digits.fault .invalidCodePoint .escape began)
      | some ch => .ok (ch, digits.advance n)

/-- What stands at the cursor inside a quoted text. -/
inductive Step where
  | finished
  | char (c : Char) (after : Cursor)
  | gap (opened : Gap) (after : Cursor)

/-- Looks at what comes next inside a text in apostrophes. -/
def stepSingle (c : Cursor) : Step :=
  match c.rest with
  | '\'' :: '\'' :: _ => .char '\'' (c.advance 2)
  | '\'' :: _ => .finished
  | ch :: _ => if isGap ch then .gap Gap.none c else .char ch c.skip
  | [] => .finished

/-- Looks at what comes next inside a text in double quotes. -/
def stepDouble (began : Mark) (c : Cursor) : Except Fault Step :=
  match c.rest with
  | '"' :: _ => .ok .finished
  | '\\' :: ch :: _ =>
    if isBreak ch then .ok (.gap Gap.joined c.skip.takeBreak.2)
    else (readEscape began c).map fun (e, after) => .char e after
  | '\\' :: _ => (readEscape began c).map fun (e, after) => .char e after
  | ch :: _ => .ok (if isGap ch then .gap Gap.none c else .char ch c.skip)
  | [] => .ok .finished

/-- Reads a quoted text up to its closing quote. -/
def body (double : Bool) (began : Mark) : Nat → Cursor → Except Fault (List Char × Cursor)
  | 0, c => .error (c.fault .unexpectedEnd .quotedScalar began)
  | fuel + 1, c => do
    if c.rest.isEmpty then
      .error (c.fault .unexpectedEnd .quotedScalar began)
    let step ← if double then stepDouble began c else .ok (stepSingle c)
    match step with
    | .finished => .ok ([], c)
    | .char ch after =>
      let (text, close) ← body double began fuel after
      .ok (ch :: text, close)
    | .gap opened after =>
      match opened.read 0 after.rest after.mark with
      | .error m => .error (Cursor.fault ⟨[], m⟩ .unexpectedEnd .quotedScalar began)
      | .ok (gap, next) =>
        if next.atDocumentIndicator then
          .error (next.fault .unexpectedDocumentIndicator .quotedScalar began)
        let (text, close) ← body double began fuel next
        .ok (gap.text ++ text, close)

/-- Reads a quoted scalar; the cursor stands on its opening quote. -/
def read (double : Bool) (c : Cursor) : Except Fault (Token × Cursor) := do
  let (text, close) ← body double c.mark (c.rest.length + 1) c.skip
  let after := close.skip
  .ok (⟨.scalar text (if double then .doubleQuoted else .singleQuoted), c.mark, after.mark⟩, after)

end AgentHost.Yaml.Quoted
