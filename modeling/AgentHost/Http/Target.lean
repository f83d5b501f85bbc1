import AgentHost.Text.Utf8
/-!
# Request targets

What a request asks for comes in four forms: a path, a whole address with a
scheme, an authority alone, and `*`. Of each the path and the query are kept. A
fragment is cut off unread.

A target without a path, such as a lone authority, has the empty path; an address
that names no path has `/`.
-/

namespace AgentHost.Http

open Text (Bytes)

/-- Why bytes are no target. -/
inductive TargetError where
  | tooLong
  | empty
  | badChar
  | badAuthority
  | badFormat
  | schemeTooLong
  deriving DecidableEq, Repr

/-- The error in words. -/
def TargetError.message : TargetError → String
  | .tooLong => "uri too long"
  | .empty => "empty string"
  | .badChar => "invalid uri character"
  | .badAuthority => "invalid authority"
  | .badFormat => "invalid format"
  | .schemeTooLong => "scheme too long"

/-- What a request asks for. -/
structure Target where
  path : String
  query : Option String
  deriving DecidableEq, Repr

namespace Target

/-- The byte of a character below 128. -/
def code (c : Char) : UInt8 := UInt8.ofNat c.toNat

/-- The byte is one of those of a text. -/
def isIn (text : String) (b : UInt8) : Bool :=
  text.toList.any fun c => code c == b

/-- The byte is a letter or a digit. -/
def isAlphanum (b : UInt8) : Bool :=
  (Char.ofNat b.toNat).isAlphanum

/-- The most bytes that a target may have. -/
def maxLength : Nat := 65534

/-- The most bytes that a scheme may have. -/
def maxScheme : Nat := 64

/-! ## Path and query -/

/-- The byte may stand in a path. Bytes from 0x7F on have to be part of UTF-8. -/
def isPathByte (b : UInt8) : Bool :=
  b = 0x21 || b = 0x22 || (0x24 ≤ b && b ≤ 0x3B) || b = 0x3D || (0x40 ≤ b && b ≤ 0x5F) || 0x61 ≤ b

/-- The byte may stand in a query. -/
def isQueryByte (b : UInt8) : Bool :=
  b = 0x21 || (0x24 ≤ b && b ≤ 0x3B) || b = 0x3D || 0x3F ≤ b

/-- Bytes that are all allowed and spell a text. -/
def text? (allowed : UInt8 → Bool) (bytes : Bytes) : Except TargetError String :=
  if bytes.all allowed then
    match Text.Utf8.decode? bytes with
    | some cs => .ok (String.ofList cs)
    | none => .error .badChar
  else .error .badChar

/-- Reads a path with its query, as far as the fragment. -/
def parsePath (bytes : Bytes) : Except TargetError Target := do
  let bytes := bytes.takeWhile (· ≠ code '#')
  let path ← text? isPathByte (bytes.takeWhile (· ≠ code '?'))
  match bytes.dropWhile (· ≠ code '?') with
  | [] => .ok ⟨path, none⟩
  | _ :: query =>
    let query ← text? isQueryByte query
    .ok ⟨path, some query⟩

/-! ## Authority -/

/-- The most colons that may stand in a row of addresses. -/
def maxColons : Nat := 8

/-- What was met so far in an authority. -/
structure Authority where
  /-- Colons since the last `@` or `]`. -/
  colons : Nat
  opened : Bool
  closed : Bool
  /-- There was a `%` since the last `@` or `]`. -/
  percent : Bool
  /-- The last byte was `@`. -/
  afterAt : Bool
  deriving DecidableEq, Repr

namespace Authority

/-- Nothing was met. -/
def start : Authority := ⟨0, false, false, false, false⟩

/-- The byte ends an authority. -/
def isEnd (b : UInt8) : Bool := isIn "/?#" b

/-- The byte may stand in an authority and means nothing there. -/
def isPlain (b : UInt8) : Bool := isAlphanum b || isIn "!$&'()*+,-.;=_~" b

/-- Reads one byte. -/
def step (a : Authority) (b : UInt8) : Except TargetError Authority :=
  let a := { a with afterAt := false }
  if b = code ':' then
    if a.colons ≥ maxColons then .error .badAuthority else .ok { a with colons := a.colons + 1 }
  else if b = code '[' then
    if a.percent || a.opened then .error .badAuthority else .ok { a with opened := true }
  else if b = code ']' then
    if !a.opened || a.closed then .error .badAuthority
    else .ok { a with closed := true, colons := 0, percent := false }
  else if b = code '@' then .ok { a with colons := 0, percent := false, afterAt := true }
  else if b = code '%' then .ok { a with percent := true }
  else if isPlain b then .ok a
  else .error .badChar

/-- The authority may end here. -/
def isComplete (a : Authority) : Bool :=
  a.opened == a.closed && a.colons ≤ 1 && !a.afterAt && !a.percent

/-- Splits an authority off the front and checks it. -/
def split (bytes : Bytes) : Except TargetError (Bytes × Bytes) := do
  if bytes = [] then .error .empty
  else
    let name := bytes.takeWhile (!isEnd ·)
    let last ← name.foldlM step start
    if last.isComplete then .ok (name, bytes.dropWhile (!isEnd ·)) else .error .badAuthority

end Authority

/-! ## Scheme -/

/-- The byte may stand in a scheme. -/
def isSchemeByte (b : UInt8) : Bool := isAlphanum b || isIn "+-.~" b

/-- What follows the scheme and its `://`, if there is a scheme. -/
def afterScheme? (bytes : Bytes) : Except TargetError (Option Bytes) :=
  let scheme := bytes.takeWhile isSchemeByte
  match bytes.dropWhile isSchemeByte with
  | a :: b :: c :: rest =>
    if a = code ':' ∧ b = code '/' ∧ c = code '/' then
      if scheme.length > maxScheme then .error .schemeTooLong
      else if bytes.length ≤ 3 then .ok none
      else .ok (some rest)
    else .ok none
  | _ => .ok none

/-! ## Targets -/

/-- A path that is empty stands for `/`. -/
def orRoot (t : Target) : Target :=
  if t.path = "" then { t with path := "/" } else t

/-- Reads a whole address, or an authority alone. -/
def parseAddress (bytes : Bytes) : Except TargetError Target := do
  match ← afterScheme? bytes with
  | none =>
    let (_, rest) ← Authority.split bytes
    if rest = [] then .ok ⟨"", none⟩ else .error .badFormat
  | some rest =>
    let (name, rest) ← Authority.split rest
    if name = [] then .error .badFormat
    else
      let target ← parsePath rest
      .ok target.orRoot

/-- Reads a target. -/
def parse (bytes : Bytes) : Except TargetError Target :=
  if bytes.length > maxLength then .error .tooLong
  else match bytes with
    | [] => .error .empty
    | [b] =>
      if b = code '/' then .ok ⟨"/", none⟩
      else if b = code '*' then .ok ⟨"*", none⟩
      else do
        let (_, rest) ← Authority.split [b]
        if rest = [] then .ok ⟨"", none⟩ else .error .badChar
    | b :: _ => if b = code '/' then parsePath bytes else parseAddress bytes

end Target

end AgentHost.Http
