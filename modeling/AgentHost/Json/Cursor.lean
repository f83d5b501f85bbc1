import AgentHost.Json.Value
/-!
# Reading JSON with places

A `Place` is a line, counted from one, and the bytes read on it. A `Cursor` is
what is still to be read and the place where it starts. A `DecodeError` is the
first thing wrong with a text, either with its form or with what it says, and
the place where that showed.

Where the next byte is what is wrong, the place is behind that byte.
-/

namespace AgentHost.Json

/-- A line and the bytes read on it. -/
structure Place where
  line : Nat
  column : Nat
  deriving DecidableEq, Repr

namespace Place

/-- The start of a text. -/
def start : Place := ⟨1, 0⟩

/-- The place behind a character. -/
def past (p : Place) (c : Char) : Place :=
  if c = '\n' then ⟨p.line + 1, 0⟩ else ⟨p.line, p.column + c.utf8Size⟩

/-- The place so many bytes further on in a text. -/
def pastBytes (p : Place) : Nat → List Char → Place
  | 0, _ => p
  | _, [] => p
  | n + 1, c :: rest =>
    if c.utf8Size ≤ n + 1 then (p.past c).pastBytes (n + 1 - c.utf8Size) rest
    else ⟨p.line, p.column + (n + 1)⟩
  termination_by _ cs => cs.length

end Place

/-- What is still to be read, and the place where it starts. -/
structure Cursor where
  rest : List Char
  place : Place
  deriving DecidableEq, Repr

namespace Cursor

/-- The start of a text. -/
def start (text : List Char) : Cursor := ⟨text, Place.start⟩

/-- Past one character. -/
def next (c : Cursor) : Cursor :=
  match c.rest with
  | ch :: rest => ⟨rest, c.place.past ch⟩
  | [] => c

/-- The place behind the next byte. -/
def peekPlace (c : Cursor) : Place := c.place.pastBytes 1 c.rest

/-- Past the whitespace from a place on. -/
def skipSpaceFrom : List Char → Place → Cursor
  | [], p => ⟨[], p⟩
  | ch :: rest, p => if isSpace ch then skipSpaceFrom rest (p.past ch) else ⟨ch :: rest, p⟩

/-- Past the whitespace. -/
def skipSpace (c : Cursor) : Cursor := skipSpaceFrom c.rest c.place

/-- Past the characters of a text. -/
def skipChars (c : Cursor) : List Char → Cursor
  | [] => c
  | _ :: more => c.next.skipChars more

end Cursor

/-! ## Errors -/

/-- What is wrong with the form of a text. -/
inductive SyntaxProblem where
  | endInList
  | endInObject
  | endInString
  | endInValue
  | expectedColon
  | expectedListCommaOrEnd
  | expectedObjectCommaOrEnd
  | expectedWord
  | expectedValue
  | invalidEscape
  | invalidNumber
  | numberOutOfRange
  | controlCharacter
  | keyNotText
  | loneSurrogate
  | endOfHexEscape
  | trailingComma
  | trailingCharacters
  deriving DecidableEq, Repr

/-- The problem in words. -/
def SyntaxProblem.message : SyntaxProblem → String
  | .endInList => "EOF while parsing a list"
  | .endInObject => "EOF while parsing an object"
  | .endInString => "EOF while parsing a string"
  | .endInValue => "EOF while parsing a value"
  | .expectedColon => "expected `:`"
  | .expectedListCommaOrEnd => "expected `,` or `]`"
  | .expectedObjectCommaOrEnd => "expected `,` or `\x7d`"
  | .expectedWord => "expected ident"
  | .expectedValue => "expected value"
  | .invalidEscape => "invalid escape"
  | .invalidNumber => "invalid number"
  | .numberOutOfRange => "number out of range"
  | .controlCharacter => "control character (\\u0000-\\u001F) found while parsing a string"
  | .keyNotText => "key must be a string"
  | .loneSurrogate => "lone leading surrogate in hex escape"
  | .endOfHexEscape => "unexpected end of hex escape"
  | .trailingComma => "trailing comma"
  | .trailingCharacters => "trailing characters"

/-- The text ended too early. -/
def SyntaxProblem.isEnd : SyntaxProblem → Bool
  | .endInList | .endInObject | .endInString | .endInValue => true
  | _ => false

/-- The kinds of errors. -/
inductive Category where
  | malformed
  | unfinished
  | data
  deriving DecidableEq, Repr

/-- What is wrong with a text. -/
inductive Cause where
  | form (problem : SyntaxProblem)
  | wrongType (found expected : String)
  | wrongValue (found expected : String)
  | wrongLength (length : Nat) (expected : String)
  | missingField (name : String)
  | duplicateField (name : String)
  deriving DecidableEq, Repr

namespace Cause

/-- The cause in words. -/
def message : Cause → String
  | .form problem => problem.message
  | .wrongType found expected => "invalid type: " ++ found ++ ", expected " ++ expected
  | .wrongValue found expected => "invalid value: " ++ found ++ ", expected " ++ expected
  | .wrongLength length expected =>
    "invalid length " ++ toString length ++ ", expected " ++ expected
  | .missingField name => "missing field `" ++ name ++ "`"
  | .duplicateField name => "duplicate field `" ++ name ++ "`"

/-- The kind of the cause. -/
def category : Cause → Category
  | .form problem => if problem.isEnd then .unfinished else .malformed
  | _ => .data

end Cause

/-- Why a text was not decoded. -/
structure DecodeError where
  cause : Cause
  place : Place
  deriving DecidableEq, Repr

/-- The error in one sentence. -/
def DecodeError.message (e : DecodeError) : String :=
  e.cause.message ++ " at line " ++ toString e.place.line ++ " column " ++ toString e.place.column

namespace Cursor

/-- An error at the place of the cursor. -/
def fail {α : Type} (c : Cursor) (cause : Cause) : Except DecodeError α :=
  .error ⟨cause, c.place⟩

/-- A problem at the place of the cursor. -/
def problem {α : Type} (c : Cursor) (p : SyntaxProblem) : Except DecodeError α :=
  .error ⟨.form p, c.place⟩

/-- A problem with the next byte. -/
def peekProblem {α : Type} (c : Cursor) (p : SyntaxProblem) : Except DecodeError α :=
  .error ⟨.form p, c.peekPlace⟩

end Cursor

end AgentHost.Json
