import AgentHost.Text.Utf8
import AgentHost.Yaml.Fault
/-!
# Reading a text from left to right

A `Cursor` is what is still to be read of a text, and the place where that
starts. The character classes of the format are here too. A line break is one of
five characters, or a carriage return with a line feed behind it; `breakText` is
what a break contributes to a scalar, a line feed for all but the two Unicode
separators, which stay what they are.
-/

namespace AgentHost.Yaml

/-- A space or a tab. -/
def isBlank (c : Char) : Bool := c == ' ' || c == '\t'

/-- A character that ends a line. -/
def isBreak (c : Char) : Bool :=
  c == '\n' || c == '\r' || c == '\u0085' || c == '\u2028' || c == '\u2029'

/-- A blank or a break. -/
def isGap (c : Char) : Bool := isBlank c || isBreak c

/-- A character of a word: a letter or digit of ASCII, `-` or `_`. -/
def isWord (c : Char) : Bool := c.isAlphanum || c == '-' || c == '_'

/-- The value of a hexadecimal digit. -/
def hexValue? (c : Char) : Option Nat :=
  if c.isDigit then some (c.toNat - '0'.toNat)
  else if 'a' ≤ c ∧ c ≤ 'f' then some (c.toNat - 'a'.toNat + 10)
  else if 'A' ≤ c ∧ c ≤ 'F' then some (c.toNat - 'A'.toNat + 10)
  else none

/-- A character that the text may hold at all. -/
def isAllowed (c : Char) : Bool :=
  c == '\t' || c == '\n' || c == '\r' || (' ' ≤ c && c ≤ '~') || c == '\u0085'
    || ('\u00a0' ≤ c && c ≤ '\ud7ff') || ('\ue000' ≤ c && c ≠ '\ufffe' && c ≠ '\uffff')

/-- The bytes in front of the first character that the text may not hold. -/
def forbiddenAt? (cs : List Char) : Option Nat :=
  let before := cs.takeWhile isAllowed
  if before.length = cs.length then none
  else some (Text.Utf8.encode before).length

/-- The end of the text, or the start of a gap. -/
def endsWord : List Char → Bool
  | [] => true
  | c :: _ => isGap c

/-- The text is at its end or at a break. -/
def endsLine : List Char → Bool
  | [] => true
  | c :: _ => isBreak c

/-- What a break adds to a scalar. -/
def breakText (c : Char) : List Char :=
  if c == '\u2028' || c == '\u2029' then [c] else ['\n']

/-- What is still to be read, and the place where it starts. -/
structure Cursor where
  rest : List Char
  mark : Mark
  deriving DecidableEq, Repr

namespace Cursor

/-- Past one character of the line. -/
def skip (c : Cursor) : Cursor := ⟨c.rest.drop 1, c.mark.next⟩

/-- Past some characters of the line. -/
def advance (c : Cursor) : Nat → Cursor
  | 0 => c
  | n + 1 => c.skip.advance n

/-- Past a break, if one is next: what it adds to a scalar, and where the next
line starts. -/
def takeBreak (c : Cursor) : List Char × Cursor :=
  match c.rest with
  | '\r' :: '\n' :: rest => (['\n'], ⟨rest, c.mark.newLine 2⟩)
  | b :: rest => if isBreak b then (breakText b, ⟨rest, c.mark.newLine 1⟩) else ([], c)
  | [] => ([], c)

/-- Past the characters of the line that a test accepts. -/
def skipWhile (p : Char → Bool) : List Char → Mark → Cursor
  | [], m => ⟨[], m⟩
  | c :: rest, m => if p c then skipWhile p rest m.next else ⟨c :: rest, m⟩

/-- The characters that a test accepts, and the cursor past them. -/
def takeWhile (p : Char → Bool) : List Char → Mark → List Char × Cursor
  | [], m => ([], ⟨[], m⟩)
  | c :: rest, m =>
    if p c then
      let (taken, after) := takeWhile p rest m.next
      (c :: taken, after)
    else ([], ⟨c :: rest, m⟩)

/-- Past the blanks. -/
def skipBlanks (c : Cursor) : Cursor := skipWhile isBlank c.rest c.mark

/-- Past a comment, if one is next, to the end of its line. -/
def skipComment (c : Cursor) : Cursor :=
  match c.rest with
  | '#' :: _ => skipWhile (fun ch => !isBreak ch) c.rest c.mark
  | _ => c

/-- A line is next that starts with `---` or `...` and nothing behind it. -/
def atDocumentIndicator (c : Cursor) : Bool :=
  c.mark.column == 0 && match c.rest with
    | '-' :: '-' :: '-' :: rest => endsWord rest
    | '.' :: '.' :: '.' :: rest => endsWord rest
    | _ => false

/-- A fault at the cursor, met in a construct that began elsewhere. -/
def fault (c : Cursor) (problem : Problem) (construct : Construct) (began : Mark) : Fault :=
  .malformed problem c.mark (some (construct, began))

end Cursor

/-- Blanks and breaks between two pieces of a scalar. -/
structure Gap where
  blanks : List Char
  broken : Bool
  firstBreak : List Char
  laterBreaks : List Char

namespace Gap

/-- No gap. -/
def none : Gap := ⟨[], false, [], []⟩

/-- The gap behind a break that adds nothing. -/
def joined : Gap := ⟨[], true, [], []⟩

/-- The gap with a break behind it. -/
def addBreak (g : Gap) (text : List Char) : Gap :=
  if g.broken then { g with laterBreaks := g.laterBreaks ++ text }
  else ⟨[], true, text, []⟩

/-- The gap with a blank behind it, which counts only on the first line. -/
def addBlank (g : Gap) (c : Char) : Gap :=
  if g.broken then g else { g with blanks := g.blanks ++ [c] }

/-- What the gap adds to the scalar: its blanks, or, where it has breaks, all of
them but the first, with a space in the place of a first break that is alone. -/
def text (g : Gap) : List Char :=
  if g.broken then
    if g.firstBreak = ['\n'] then
      if g.laterBreaks.isEmpty then [' '] else g.laterBreaks
    else g.firstBreak ++ g.laterBreaks
  else g.blanks

/-- Reads a gap to its end. On a later line a tab in front of column `margin` is
refused; the answer is then its place. -/
def read (margin : Nat) (g : Gap) : List Char → Mark → Except Mark (Gap × Cursor)
  | [], m => .ok (g, ⟨[], m⟩)
  | '\r' :: '\n' :: rest, m => read margin (g.addBreak ['\n']) rest (m.newLine 2)
  | c :: rest, m =>
    if isBreak c then read margin (g.addBreak (breakText c)) rest (m.newLine 1)
    else if isBlank c then
      if g.broken && c == '\t' && m.column < margin then .error m
      else read margin (g.addBlank c) rest m.next
    else .ok (g, ⟨c :: rest, m⟩)

end Gap

end AgentHost.Yaml
