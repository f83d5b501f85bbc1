import AgentHost.Yaml.Token
/-!
# Tags, anchors and aliases

A tag is `!<name>` in full, `!handle!suffix`, `!suffix`, or a lone `!`. Bytes
that a tag may not hold are written as `%` and two hexadecimal digits. An anchor
is `&` and a word, an alias is `*` and a word.
-/

namespace AgentHost.Yaml.Tag

/-- What is being read when a part of a tag is read: a tag, or the directive
that declares a handle. -/
structure Setting where
  /-- Named where the text does not start with `!`. -/
  start : Construct
  /-- Named where the name or the beginning that it stands for is malformed. -/
  name : Construct
  began : Mark

/-- A tag in the text. -/
def Setting.tag (began : Mark) : Setting := ⟨.tag, .tagSuffix, began⟩

/-- A declaration of a handle. -/
def Setting.directive (began : Mark) : Setting := ⟨.tagDirectiveStart, .tagDirectivePrefix, began⟩

/-- A character that stands for itself in a tag. The last three are only allowed
where nothing else ends the tag. -/
def isUriChar (full : Bool) (c : Char) : Bool :=
  isWord c || ";/?:@&=+$.!~*'()".toList.contains c || (full && ",[]".toList.contains c)

/-- The byte that a `%` and two digits stand for. -/
def octet? : List Char → Option Nat
  | '%' :: a :: b :: _ =>
    match hexValue? a, hexValue? b with
    | some x, some y => some (x * 16 + y)
    | _, _ => none
  | _ => none

/-- The bytes of a character by its first one: how many there are, and the bits
of the first that count. -/
def octetCount? (n : Nat) : Option (Nat × Nat) :=
  if n < 0x80 then some (1, n)
  else if n / 32 = 6 then some (2, n % 32)
  else if n / 16 = 14 then some (3, n % 16)
  else if n / 8 = 30 then some (4, n % 8)
  else none

/-- Reads the escaped bytes of a character behind its first. -/
def readTrailing (s : Setting) : Nat → Nat → Cursor → Except Fault (Nat × Cursor)
  | 0, value, c => .ok (value, c)
  | n + 1, value, c =>
    match octet? c.rest with
    | none => .error (c.fault .expectedUriEscape s.name s.began)
    | some o =>
      if o / 64 = 2 then readTrailing s n (value * 64 + o % 64) (c.advance 3)
      else .error (c.fault .trailingOctet s.name s.began)

/-- Reads one escaped character. -/
def readEscape (s : Setting) (c : Cursor) : Except Fault (Char × Cursor) :=
  match octet? c.rest with
  | none => .error (c.fault .expectedUriEscape s.name s.began)
  | some o =>
    match octetCount? o with
    | none => .error (c.fault .leadingOctet s.name s.began)
    | some (count, bits) =>
      (readTrailing s (count - 1) bits (c.advance 3)).map fun (value, after) =>
        (Char.ofNat value, after)

/-- Reads the characters of a name. -/
def readUriChars (s : Setting) (full : Bool) : Nat → Cursor → Except Fault (List Char × Cursor)
  | 0, c => .ok ([], c)
  | fuel + 1, c =>
    match c.rest with
    | '%' :: _ => do
      let (ch, after) ← readEscape s c
      let (text, next) ← readUriChars s full fuel after
      .ok (ch :: text, next)
    | ch :: _ =>
      if isUriChar full ch then do
        let (text, next) ← readUriChars s full fuel c.skip
        .ok (ch :: text, next)
      else .ok ([], c)
    | [] => .ok ([], c)

/-- Reads a name. It may be empty only where something stands before it. -/
def readUri (s : Setting) (full mayBeEmpty : Bool) (c : Cursor) :
    Except Fault (List Char × Cursor) := do
  let (text, after) ← readUriChars s full c.rest.length c
  if text.isEmpty && !mayBeEmpty then
    .error (after.fault .expectedTagUri s.name s.began)
  .ok (text, after)

/-- Reads a handle: `!`, a word, and a second `!` if there is one. -/
def readHandle (s : Setting) (c : Cursor) : Except Fault (List Char × Cursor) :=
  match c.rest with
  | '!' :: _ =>
    let (word, after) := Cursor.takeWhile isWord c.skip.rest c.skip.mark
    match after.rest with
    | '!' :: _ => .ok ('!' :: word ++ ['!'], after.skip)
    | _ => .ok ('!' :: word, after)
  | _ => .error (c.fault .expectedExclamation s.start s.began)

/-- The text is a handle with a `!` at both ends. -/
def isNamedHandle (handle : List Char) : Bool :=
  handle.length ≥ 2 && handle.getLast? == some '!'

/-- Reads the name of a tag that is not written in full. -/
def readShort (s : Setting) (c : Cursor) : Except Fault (TagName × Cursor) := do
  let (handle, after) ← readHandle s c
  if isNamedHandle handle then
    let (suffix, next) ← readUri s false false after
    .ok (⟨handle, suffix⟩, next)
  else
    let (more, next) ← readUri s false true after
    let suffix := handle.drop 1 ++ more
    .ok (if suffix.isEmpty then ⟨[], ['!']⟩ else ⟨['!'], suffix⟩, next)

/-- Reads the name of a tag that is written in full. -/
def readFull (s : Setting) (c : Cursor) : Except Fault (TagName × Cursor) := do
  let (name, after) ← readUri s true false (c.advance 2)
  match after.rest with
  | '>' :: _ => .ok (⟨[], name⟩, after.skip)
  | _ => .error (after.fault .expectedAngle .tag s.began)

/-- Reads a tag. Behind it a gap follows, or a comma inside brackets. -/
def read (flow : Bool) (c : Cursor) : Except Fault (Token × Cursor) := do
  let s := Setting.tag c.mark
  let (name, after) ← match c.rest with
    | _ :: '<' :: _ => readFull s c
    | _ => readShort s c
  if endsWord after.rest || (flow && after.rest.head? == some ',') then
    .ok (⟨.tag name, c.mark, after.mark⟩, after)
  else .error (after.fault .expectedWhitespaceOrBreak .tag c.mark)

/-- What may stand right behind the name of an anchor. -/
def endsName : List Char → Bool
  | [] => true
  | c :: _ => isGap c || "?:,]\x7d%@`".toList.contains c

/-- Reads an anchor or an alias. -/
def readAnchor (isAlias : Bool) (c : Cursor) : Except Fault (Token × Cursor) :=
  let (name, after) := Cursor.takeWhile isWord c.skip.rest c.skip.mark
  if name.isEmpty || !endsName after.rest then
    .error (after.fault .expectedAlphanumeric (if isAlias then .alias else .anchor) c.mark)
  else .ok (⟨if isAlias then .alias name else .anchor name, c.mark, after.mark⟩, after)

end AgentHost.Yaml.Tag
