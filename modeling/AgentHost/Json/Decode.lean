import AgentHost.Json.Token
import AgentHost.Text.Quoted
/-!
# Decoding records

A record is decoded from an object or from an array. In an object its members may
stand in any order; each may occur once, those that are required have to, and
members of other names are passed over. In an array the members stand in their
own order, and those at the end that are not required may be left out.

Values are read in the order of the text, so the first thing wrong decides.
-/

namespace AgentHost.Json

namespace Decode

/-! ## What stands there instead -/

/-- Refuses the value at the cursor: what it is, and what was expected. A value
that is malformed is refused for that. -/
def wrongType {α : Type} (expected : String) (c : Cursor) : Except DecodeError α :=
  let refuse (found : String) (c : Cursor) : Except DecodeError α :=
    c.fail (.wrongType found expected)
  match c.rest with
  | [] => c.peekProblem .expectedValue
  | 'n' :: _ => do refuse "null" (← Token.readWord c.next "ull".toList)
  | 't' :: _ => do refuse "boolean `true`" (← Token.readWord c.next "rue".toList)
  | 'f' :: _ => do refuse "boolean `false`" (← Token.readWord c.next "alse".toList)
  | '-' :: _ => do
    let (n, c) ← Token.readNumber true c.next
    refuse n.message c
  | '"' :: rest => do
    let (text, c) ← Token.readString (rest.length + 1) c.next
    refuse ("string " ++ Text.Quoted.ofString (String.ofList text)) c
  | '[' :: _ => refuse "sequence" c
  | '{' :: _ => refuse "map" c
  | ch :: _ =>
    if ch.isDigit then do
      let (n, c) ← Token.readNumber false c
      refuse n.message c
    else c.peekProblem .expectedValue

/-! ## Values -/

/-- Reads a text. -/
def text (c : Cursor) : Except DecodeError (String × Cursor) :=
  let c := c.skipSpace
  match c.rest with
  | [] => c.peekProblem .endInValue
  | '"' :: rest => do
    let (cs, c) ← Token.readString (rest.length + 1) c.next
    .ok (String.ofList cs, c)
  | _ => wrongType "a string" c

/-- Reads a text or `null`. -/
def optionalText (c : Cursor) : Except DecodeError (Option String × Cursor) :=
  let c := c.skipSpace
  match c.rest with
  | 'n' :: _ => do .ok (none, ← Token.readWord c.next "ull".toList)
  | _ => do
    let (s, c) ← text c
    .ok (some s, c)

/-- The number as a word of 16 bits, for a value that ends at the cursor. -/
def toWord (n : Numeral) (c : Cursor) : Except DecodeError (UInt16 × Cursor) :=
  match n with
  | .unsigned k =>
    if k < UInt16.size then .ok (UInt16.ofNat k, c) else c.fail (.wrongValue n.message "u16")
  | .negative _ => c.fail (.wrongValue n.message "u16")
  | .real _ => c.fail (.wrongType n.message "u16")

/-- Reads a word of 16 bits. -/
def word (c : Cursor) : Except DecodeError (UInt16 × Cursor) :=
  let c := c.skipSpace
  match c.rest with
  | [] => c.peekProblem .endInValue
  | '-' :: _ => do
    let (n, c) ← Token.readNumber true c.next
    toWord n c
  | ch :: _ =>
    if ch.isDigit then do
      let (n, c) ← Token.readNumber false c
      toWord n c
    else wrongType "u16" c

/-! ## Lists -/

/-- Reads items up to the end of a list. `first` says that none was read yet. -/
def items {α : Type} (item : Cursor → Except DecodeError (α × Cursor)) :
    Nat → Bool → Cursor → Except DecodeError (List α × Cursor)
  | 0, _, c => c.peekProblem .endInList
  | fuel + 1, first, c =>
    let c := c.skipSpace
    let read (c : Cursor) : Except DecodeError (List α × Cursor) := do
      let (x, c) ← item c
      let (xs, c) ← items item fuel false c
      .ok (x :: xs, c)
    match c.rest with
    | [] => c.peekProblem .endInList
    | ']' :: _ => .ok ([], c.next)
    | ch :: _ =>
      if first then read c
      else if ch = ',' then
        let c := c.next.skipSpace
        match c.rest with
        | [] => c.peekProblem .endInValue
        | ']' :: _ => c.peekProblem .trailingComma
        | _ => read c
      else c.peekProblem .expectedListCommaOrEnd

/-- Reads a list. -/
def list {α : Type} (item : Cursor → Except DecodeError (α × Cursor)) (c : Cursor) :
    Except DecodeError (List α × Cursor) :=
  let c := c.skipSpace
  match c.rest with
  | [] => c.peekProblem .endInValue
  | '[' :: rest => items item (rest.length + 1) true c.next
  | _ => wrongType "a sequence" c

/-! ## Records -/

/-- A member of a record: its name, whether it has to be there, and how its value
is put into the record. -/
structure Member (σ : Type) where
  name : String
  required : Bool
  read : σ → Cursor → Except DecodeError (σ × Cursor)

/-- The shape of a record: its name, its members, and a record to put them into. -/
structure Shape (σ : Type) where
  name : String
  members : List (Member σ)
  start : σ

namespace Shape

/-- The shape in words. -/
def expected {σ : Type} (s : Shape σ) : String := "struct " ++ s.name

/-- The shape in words, with the number of its members. -/
def expectedLength {σ : Type} (s : Shape σ) : String :=
  s.expected ++ " with " ++ toString s.members.length
    ++ (if s.members.length = 1 then " element" else " elements")

/-- The first required member that was not seen. -/
def missing? {σ : Type} (s : Shape σ) (seen : List String) : Option String :=
  (s.members.find? fun m => m.required && !seen.contains m.name).map (·.name)

/-- The member of that name. -/
def member? {σ : Type} (s : Shape σ) (name : List Char) : Option (Member σ) :=
  s.members.find? fun m => m.name.toList == name

end Shape

/-- The cursor behind the end of an object, if that is next. -/
def pastEnd (close : Char) (c : Cursor) : Cursor :=
  let c := c.skipSpace
  if c.rest.head? = some close then c.next else c

/-- Reads the colon behind a name. -/
def colon (c : Cursor) : Except DecodeError Cursor :=
  let c := c.skipSpace
  match c.rest with
  | [] => c.peekProblem .endInObject
  | ':' :: _ => .ok c.next
  | _ => c.peekProblem .expectedColon

/-- Finds the name of the next member: the cursor behind its opening quote, or the
cursor at the end of the object. -/
def nextName (first : Bool) (c : Cursor) : Except DecodeError (Cursor ⊕ Cursor) :=
  let c := c.skipSpace
  match c.rest with
  | [] => c.peekProblem .endInObject
  | '}' :: _ => .ok (.inr c)
  | ch :: _ =>
    if first then
      if ch = '"' then .ok (.inl c.next) else c.peekProblem .keyNotText
    else if ch = ',' then
      let c := c.next.skipSpace
      match c.rest with
      | [] => c.peekProblem .endInValue
      | '"' :: _ => .ok (.inl c.next)
      | '}' :: _ => c.peekProblem .trailingComma
      | _ => c.peekProblem .keyNotText
    else c.peekProblem .expectedObjectCommaOrEnd

/-- Reads members up to the end of an object. `seen` are the names of those that
were read. -/
def members {σ : Type} (s : Shape σ) :
    Nat → Bool → List String → σ → Cursor → Except DecodeError (σ × Cursor)
  | 0, _, _, _, c => c.peekProblem .endInObject
  | fuel + 1, first, seen, value, c => do
    match ← nextName first c with
    | .inr c =>
      match s.missing? seen with
      | some name => c.next.fail (.missingField name)
      | none => .ok (value, c.next)
    | .inl c =>
      let (name, c) ← Token.readString (c.rest.length + 1) c
      match s.member? name with
      | some m =>
        if seen.contains m.name then
          (pastEnd '}' c).fail (.duplicateField m.name)
        else
          let c ← colon c
          let (value, c) ← m.read value c
          members s fuel false (m.name :: seen) value c
      | none =>
        let c ← colon c
        let c ← Token.skipValue (2 * c.rest.length + 2) c
        members s fuel false seen value c

/-- Reads the members of a record in the order of its shape, up to the end of an
array. `count` were read. -/
def elements {σ : Type} (s : Shape σ) (count : Nat) :
    List (Member σ) → σ → Cursor → Except DecodeError (σ × Cursor)
  | [], value, c =>
    let c := c.skipSpace
    match c.rest with
    | [] => c.peekProblem .endInList
    | ']' :: _ => .ok (value, c.next)
    | ',' :: _ =>
      let c := c.next.skipSpace
      c.peekProblem (if c.rest.head? = some ']' then .trailingComma else .trailingCharacters)
    | _ => c.peekProblem .trailingCharacters
  | m :: more, value, c =>
    let c := c.skipSpace
    let read (c : Cursor) : Except DecodeError (σ × Cursor) := do
      let (value, c) ← m.read value c
      elements s (count + 1) more value c
    match c.rest with
    | [] => c.peekProblem .endInList
    | ']' :: _ =>
      if (m :: more).any (·.required) then
        let length := count + ((m :: more).takeWhile (!·.required)).length
        c.next.fail (.wrongLength length s.expectedLength)
      else .ok (value, c.next)
    | ch :: _ =>
      if count = 0 then read c
      else if ch = ',' then
        let c := c.next.skipSpace
        match c.rest with
        | [] => c.peekProblem .endInValue
        | ']' :: _ => c.peekProblem .trailingComma
        | _ => read c
      else c.peekProblem .expectedListCommaOrEnd

/-- Reads a record. -/
def record {σ : Type} (s : Shape σ) (c : Cursor) : Except DecodeError (σ × Cursor) :=
  let c := c.skipSpace
  match c.rest with
  | [] => c.peekProblem .endInValue
  | '[' :: _ => elements s 0 s.members s.start c.next
  | '{' :: rest => members s (rest.length + 1) true [] s.start c.next
  | _ => wrongType s.expected c

/-- Reads a text as one value with nothing but whitespace around it. -/
def whole {α : Type} (read : Cursor → Except DecodeError (α × Cursor)) (cs : List Char) :
    Except DecodeError α := do
  let (x, c) ← read (Cursor.start cs)
  let c := c.skipSpace
  if c.rest.isEmpty then .ok x else c.peekProblem .trailingCharacters

end Decode

end AgentHost.Json
