/-!
# Where and why a YAML text stops being readable

A `Mark` is a place in the text. A `Fault` is the first thing that makes the
text unreadable: a character the format does not allow, a problem met while
reading some construct, or an alias that names nothing.

`Fault.message` is the one-sentence report. It gives the place of the problem
unless that is the very start, then the construct, with the place where the
construct began when that adds something.
-/

namespace AgentHost.Yaml

/-- A place in the text: characters before it, and its line and column, all
counted from zero. -/
structure Mark where
  index : Nat
  line : Nat
  column : Nat
  deriving DecidableEq, Repr

namespace Mark

/-- The start of the text. -/
def start : Mark := ⟨0, 0, 0⟩

/-- The place behind one character of the same line. -/
def next (m : Mark) : Mark := ⟨m.index + 1, m.line, m.column + 1⟩

/-- The start of the next line, behind a break of `width` characters. -/
def newLine (m : Mark) (width : Nat) : Mark := ⟨m.index + width, m.line + 1, 0⟩

/-- The place is the start of the first line. -/
def isStart (m : Mark) : Bool := m.line == 0 && m.column == 0

/-- The place in words, counted from one. -/
def describe (m : Mark) : String :=
  "line " ++ toString (m.line + 1) ++ " column " ++ toString (m.column + 1)

/-- The place as the end of a report: nothing at the start of the text. -/
def suffix (m : Mark) : String :=
  if m.isStart then "" else " at " ++ m.describe

end Mark

/-- What is wrong at a place. -/
inductive Problem where
  | expectedColon
  | blockEntryNotAllowed
  | mappingKeyNotAllowed
  | mappingValueNotAllowed
  | cannotStartToken
  | unknownDirective
  | expectedDirectiveName
  | nonAlphabeticInDirective
  | expectedCommentOrBreak
  | expectedVersionNumber
  | expectedDigitOrDot
  | longVersionNumber
  | expectedWhitespace
  | expectedWhitespaceOrBreak
  | expectedExclamation
  | expectedTagUri
  | expectedUriEscape
  | leadingOctet
  | trailingOctet
  | expectedAngle
  | expectedAlphanumeric
  | zeroIndentation
  | tabForIndentation
  | tabViolatesIndentation
  | unexpectedDocumentIndicator
  | unexpectedEnd
  | unknownEscape
  | expectedHexadecimal
  | invalidCodePoint
  | unexpectedColon
  | expectedDocumentStart
  | duplicateVersionDirective
  | incompatibleVersion
  | duplicateTagDirective
  | undefinedTagHandle
  | expectedNodeContent
  | expectedDash
  | expectedKey
  | expectedCommaOrBracket
  | expectedCommaOrBrace
  deriving DecidableEq, Repr

/-- The problem in words. -/
def Problem.message : Problem → String
  | .expectedColon => "could not find expected ':'"
  | .blockEntryNotAllowed => "block sequence entries are not allowed in this context"
  | .mappingKeyNotAllowed => "mapping keys are not allowed in this context"
  | .mappingValueNotAllowed => "mapping values are not allowed in this context"
  | .cannotStartToken => "found character that cannot start any token"
  | .unknownDirective => "found unknown directive name"
  | .expectedDirectiveName => "could not find expected directive name"
  | .nonAlphabeticInDirective => "found unexpected non-alphabetical character"
  | .expectedCommentOrBreak => "did not find expected comment or line break"
  | .expectedVersionNumber => "did not find expected version number"
  | .expectedDigitOrDot => "did not find expected digit or '.' character"
  | .longVersionNumber => "found extremely long version number"
  | .expectedWhitespace => "did not find expected whitespace"
  | .expectedWhitespaceOrBreak => "did not find expected whitespace or line break"
  | .expectedExclamation => "did not find expected '!'"
  | .expectedTagUri => "did not find expected tag URI"
  | .expectedUriEscape => "did not find URI escaped octet"
  | .leadingOctet => "found an incorrect leading UTF-8 octet"
  | .trailingOctet => "found an incorrect trailing UTF-8 octet"
  | .expectedAngle => "did not find the expected '>'"
  | .expectedAlphanumeric => "did not find expected alphabetic or numeric character"
  | .zeroIndentation => "found an indentation indicator equal to 0"
  | .tabForIndentation => "found a tab character where an indentation space is expected"
  | .tabViolatesIndentation => "found a tab character that violates indentation"
  | .unexpectedDocumentIndicator => "found unexpected document indicator"
  | .unexpectedEnd => "found unexpected end of stream"
  | .unknownEscape => "found unknown escape character"
  | .expectedHexadecimal => "did not find expected hexadecimal number"
  | .invalidCodePoint => "found invalid Unicode character escape code"
  | .unexpectedColon => "found unexpected ':'"
  | .expectedDocumentStart => "did not find expected <document start>"
  | .duplicateVersionDirective => "found duplicate %YAML directive"
  | .incompatibleVersion => "found incompatible YAML document"
  | .duplicateTagDirective => "found duplicate %TAG directive"
  | .undefinedTagHandle => "found undefined tag handle"
  | .expectedNodeContent => "did not find expected node content"
  | .expectedDash => "did not find expected '-' indicator"
  | .expectedKey => "did not find expected key"
  | .expectedCommaOrBracket => "did not find expected ',' or ']'"
  | .expectedCommaOrBrace => "did not find expected ',' or '\x7d'"

/-- The construct that was being read. -/
inductive Construct where
  | simpleKey
  | nextToken
  | directive
  | versionDirective
  | tagDirective
  | tagDirectiveStart
  | tagDirectiveHandle
  | tagDirectivePrefix
  | anchor
  | alias
  | tag
  | tagSuffix
  | blockScalar
  | quotedScalar
  | escape
  | plainScalar
  | node
  | blockNode
  | flowNode
  | blockCollection
  | blockMapping
  | flowSequence
  | flowMapping
  deriving DecidableEq, Repr

/-- The construct in words. -/
def Construct.message : Construct → String
  | .simpleKey => "while scanning a simple key"
  | .nextToken => "while scanning for the next token"
  | .directive => "while scanning a directive"
  | .versionDirective => "while scanning a %YAML directive"
  | .tagDirective => "while scanning a %TAG directive"
  | .tagDirectiveStart => "while scanning a tag directive"
  | .tagDirectiveHandle => "while parsing a tag directive"
  | .tagDirectivePrefix => "while parsing a %TAG directive"
  | .anchor => "while scanning an anchor"
  | .alias => "while scanning an alias"
  | .tag => "while scanning a tag"
  | .tagSuffix => "while parsing a tag"
  | .blockScalar => "while scanning a block scalar"
  | .quotedScalar => "while scanning a quoted scalar"
  | .escape => "while parsing a quoted scalar"
  | .plainScalar => "while scanning a plain scalar"
  | .node => "while parsing a node"
  | .blockNode => "while parsing a block node"
  | .flowNode => "while parsing a flow node"
  | .blockCollection => "while parsing a block collection"
  | .blockMapping => "while parsing a block mapping"
  | .flowSequence => "while parsing a flow sequence"
  | .flowMapping => "while parsing a flow mapping"

/-- The first thing that makes a text unreadable. -/
inductive Fault where
  /-- A character the format does not allow, so many bytes into the text. -/
  | character (offset : Nat)
  /-- A problem at a place, met while reading a construct that began elsewhere. -/
  | malformed (problem : Problem) (place : Mark) (within : Option (Construct × Mark))
  /-- An alias that names no anchor before it. -/
  | unknownAnchor (place : Mark)
  deriving DecidableEq, Repr

/-- The fault in one sentence. -/
def Fault.message : Fault → String
  | .character 0 => "control characters are not allowed"
  | .character offset => "control characters are not allowed at position " ++ toString offset
  | .malformed problem place none => problem.message ++ place.suffix
  | .malformed problem place (some (construct, began)) =>
    problem.message ++ place.suffix ++ ", " ++ construct.message
      ++ (if (began.line, began.column) = (place.line, place.column) then "" else began.suffix)
  | .unknownAnchor place => "unknown anchor" ++ place.suffix

end AgentHost.Yaml
