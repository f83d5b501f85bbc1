import AgentHost.Yaml.Token.Tag
/-!
# Directives

A line that starts with `%` says something about the document behind it: the
version of the format, or a handle for tags.
-/

namespace AgentHost.Yaml.Directive

/-- Reads a number of at most nine digits. Its digits do not count as columns of
the line. -/
def readNumber (began : Mark) (c : Cursor) : Except Fault (Nat × Cursor) :=
  let (digits, after) := Cursor.takeWhile Char.isDigit c.rest c.mark
  if digits.isEmpty then .error (c.fault .expectedVersionNumber .versionDirective began)
  else if 9 < digits.length then
    .error (c.fault .longVersionNumber .versionDirective began)
  else .ok (digits.foldl (fun n d => n * 10 + (d.toNat - '0'.toNat)) 0, ⟨after.rest, c.mark⟩)

/-- Reads a version, two numbers with a point between them. -/
def readVersion (began : Mark) (c : Cursor) : Except Fault (Token.Kind × Cursor) := do
  let (major, point) ← readNumber began c.skipBlanks
  match point.rest with
  | '.' :: _ =>
    let (minor, after) ← readNumber began point.skip
    .ok (.versionDirective major minor, after)
  | _ => .error (point.fault .expectedDigitOrDot .versionDirective began)

/-- Reads the declaration of a handle and what it stands for. -/
def readTag (began : Mark) (c : Cursor) : Except Fault (Token.Kind × Cursor) := do
  let s := Tag.Setting.directive began
  let (handle, after) ← Tag.readHandle s c.skipBlanks
  if !Tag.isNamedHandle handle && handle ≠ ['!'] then
    .error (after.fault .expectedExclamation .tagDirectiveHandle began)
  if !(after.rest.head?.any isBlank) then
    .error (after.fault .expectedWhitespace .tagDirective began)
  let (beginning, after) ← Tag.readUri s true false after.skipBlanks
  if !endsWord after.rest then
    .error (after.fault .expectedWhitespaceOrBreak .tagDirective began)
  .ok (.tagDirective handle beginning, after)

/-- Reads a directive to the end of its line. -/
def read (c : Cursor) : Except Fault (Token × Cursor) := do
  let began := c.mark
  let (name, after) := Cursor.takeWhile isWord c.skip.rest c.skip.mark
  if name.isEmpty then
    .error (after.fault .expectedDirectiveName .directive began)
  if !endsWord after.rest then
    .error (after.fault .nonAlphabeticInDirective .directive began)
  let (kind, stop) ←
    if name = "YAML".toList then readVersion began after
    else if name = "TAG".toList then readTag began after
    else .error (after.fault .unknownDirective .directive began)
  let tail := stop.skipBlanks.skipComment
  if !endsLine tail.rest then
    .error (tail.fault .expectedCommentOrBreak .directive began)
  .ok (⟨kind, began, stop.mark⟩, tail.takeBreak.2)

end AgentHost.Yaml.Directive
