import AgentHost.Json.Cursor
import AgentHost.Json.Payload
import AgentHost.Text.Utf8
/-!
# Words, strings and numbers

Each function reads one token and answers what it denotes and the cursor behind
it. An integer that fits into 64 bits is kept exactly. Any other number is
rounded: to the digits that fit into 64 bits, and then by one multiplication or
division with a power of ten.
-/

namespace AgentHost.Json

open Number

/-- A number that was read. -/
inductive Numeral where
  | unsigned (n : Nat)
  | negative (n : Int)
  | real (x : Binary)
  deriving DecidableEq, Repr

namespace Token

/-! ## Words -/

/-- Reads the characters of a word. -/
def readWord (c : Cursor) : List Char → Except DecodeError Cursor
  | [] => .ok c
  | w :: word =>
    match c.rest with
    | [] => c.problem .endInValue
    | ch :: _ => if ch = w then readWord c.next word else c.peekProblem .expectedWord

/-! ## Strings -/

/-- Reads four hexadecimal digits. -/
def readHex (c : Cursor) : Except DecodeError (Nat × Cursor) :=
  match hexFour? c.rest with
  | some (n, rest) => .ok (n, ⟨rest, c.place.pastBytes 4 c.rest⟩)
  | none =>
    let p := c.place.pastBytes 4 c.rest
    let size := (Text.Utf8.encode (c.rest.take 4)).length
    .error ⟨.form (if size < 4 then .endInString else .invalidEscape), p⟩

/-- Reads a character of an escape. -/
def expectInEscape (c : Cursor) (ch : Char) : Except DecodeError Cursor :=
  match c.rest with
  | [] => c.problem .endInString
  | d :: _ => if d = ch then .ok c.next else c.peekProblem .endOfHexEscape

/-- Reads the code of a character behind `\u`, in one escape or in two. -/
def readCode (c : Cursor) : Except DecodeError (Char × Cursor) := do
  let (n, c) ← readHex c
  if isTrailing n then
    c.problem .loneSurrogate
  if isLeading n then
    let c ← expectInEscape c '\\'
    let c ← expectInEscape c 'u'
    let (m, c) ← readHex c
    if isTrailing m then .ok (joinHalves n m, c) else c.problem .loneSurrogate
  else .ok (Char.ofNat n, c)

/-- Reads an escape behind its backslash. -/
def readEscape (c : Cursor) : Except DecodeError (Char × Cursor) :=
  match c.rest with
  | [] => c.problem .endInString
  | 'u' :: _ => readCode c.next
  | ch :: _ =>
    match shortEscape? ch with
    | some e => .ok (e, c.next)
    | none => c.peekProblem .invalidEscape

/-- Reads a string behind its opening quote. -/
def readString : Nat → Cursor → Except DecodeError (List Char × Cursor)
  | 0, c => c.problem .endInString
  | fuel + 1, c =>
    match c.rest with
    | [] => c.problem .endInString
    | '"' :: _ => .ok ([], c.next)
    | '\\' :: _ => do
      let (ch, c) ← readEscape c.next
      let (text, c) ← readString fuel c
      .ok (ch :: text, c)
    | ch :: _ =>
      if ch < ' ' then c.peekProblem .controlCharacter
      else do
        let (text, c) ← readString fuel c.next
        .ok (ch :: text, c)

/-- Passes over an escape behind its backslash, whatever its code. -/
def skipEscape (c : Cursor) : Except DecodeError Cursor :=
  match c.rest with
  | [] => c.problem .endInString
  | 'u' :: _ => (readHex c.next).map (·.2)
  | ch :: _ => if (shortEscape? ch).isSome then .ok c.next else c.peekProblem .invalidEscape

/-- Passes over a string behind its opening quote. -/
def skipString : Nat → Cursor → Except DecodeError Cursor
  | 0, c => c.problem .endInString
  | fuel + 1, c =>
    match c.rest with
    | [] => c.problem .endInString
    | '"' :: _ => .ok c.next
    | '\\' :: _ => do
      let c ← skipEscape c.next
      skipString fuel c
    | ch :: _ => if ch < ' ' then c.problem .controlCharacter else skipString fuel c.next

/-! ## Numbers -/

/-- The digits at the cursor, and the cursor past them. -/
def takeDigits : List Char → Place → List Nat × Cursor
  | [], p => ([], ⟨[], p⟩)
  | ch :: rest, p =>
    if ch.isDigit then
      let (digits, c) := takeDigits rest (p.past ch)
      ((ch.toNat - '0'.toNat) :: digits, c)
    else ([], ⟨ch :: rest, p⟩)

/-- A digit is next. -/
def atDigit (c : Cursor) : Bool := c.rest.head?.any Char.isDigit

/-- The letter of an exponent is next. -/
def atExponent (c : Cursor) : Bool := c.rest.head?.any fun ch => ch == 'e' || ch == 'E'

/-- Appends digits to a number while the result stays within a limit: the number
and how many digits were left. -/
def accumulate (limit value : Nat) : List Nat → Nat × Nat
  | [] => (value, 0)
  | d :: rest =>
    if limit < value * 10 + d then (value, rest.length + 1)
    else accumulate limit (value * 10 + d) rest

/-- The greatest number of 64 bits. -/
def greatest : Nat := UInt64.size - 1

/-- The greatest exponent that is read as such. -/
def greatestExponent : Nat := UInt32.size / 2 - 1

/-- A power of ten, rounded. -/
def powerOfTen (k : Nat) : Binary := Binary.ofDecimal Binary.double false 1 k

/-- The number times a power of ten, by multiplications and divisions that are
rounded each. Nothing where it is too large. -/
def scale? : Nat → Binary → Int → Option Binary
  | 0, x, _ => some x
  | fuel + 1, x, e =>
    if e.natAbs ≤ 308 then
      if 0 ≤ e then
        match x.mul Binary.double (powerOfTen e.natAbs) with
        | .infinite _ => none
        | y => some y
      else some (x.div Binary.double (powerOfTen e.natAbs))
    else if x.isZero then some x
    else if 0 ≤ e then none
    else scale? fuel (x.div Binary.double (powerOfTen 308)) (e + 308)

/-- The number of some digits and a power of ten. -/
def ofParts? (negative : Bool) (significand : Nat) (e : Int) : Option Binary :=
  (scale? 5 (Binary.ofNat Binary.double significand) e).map fun x =>
    if negative then x.neg else x

/-- The number of some digits and a power of ten, at the cursor behind it. -/
def finish (negative : Bool) (significand : Nat) (e : Int) (c : Cursor) :
    Except DecodeError (Numeral × Cursor) :=
  match ofParts? negative significand e with
  | some x => .ok (.real x, c)
  | none => c.problem .numberOutOfRange

/-- A zero with a sign. -/
def signedZero (negative : Bool) : Binary := Binary.ofDecimal Binary.double negative 0 0

/-- Reads an exponent at its letter. -/
def readExponent (negative : Bool) (significand : Nat) (e : Int) (c : Cursor) :
    Except DecodeError (Numeral × Cursor) :=
  let c := c.next
  let (minus, c) := match c.rest with
    | '+' :: _ => (false, c.next)
    | '-' :: _ => (true, c.next)
    | _ => (false, c)
  match c.rest with
  | [] => c.problem .endInValue
  | ch :: _ =>
    if !ch.isDigit then c.peekProblem .invalidNumber
    else
      let (digits, after) := takeDigits c.rest c.place
      let (k, left) := accumulate greatestExponent 0 digits
      if left = 0 then finish negative significand (if minus then e - k else e + k) after
      else if significand ≠ 0 ∧ !minus then
        (c.skipChars (c.rest.take (digits.length - left + 1))).problem .numberOutOfRange
      else .ok (.real (signedZero negative), after)

/-- Reads a fraction at its point. `e` is the power of ten of the digits before. -/
def readFraction (negative : Bool) (significand : Nat) (e : Int) (c : Cursor) :
    Except DecodeError (Numeral × Cursor) :=
  let c := c.next
  let (digits, after) := takeDigits c.rest c.place
  if digits.isEmpty then
    c.peekProblem (if c.rest.isEmpty then .endInValue else .invalidNumber)
  else
    let (significand, left) := accumulate greatest significand digits
    let e := e - (digits.length - left : Nat)
    if atExponent after then readExponent negative significand e after
    else finish negative significand e after

/-- An integer without fraction and exponent. -/
def ofInteger (negative : Bool) (n : Nat) : Numeral :=
  if !negative then .unsigned n
  else if 0 < n ∧ n ≤ UInt64.size / 2 then .negative (-(n : Int))
  else .real (Binary.ofNat Binary.double n).neg

/-- Reads on behind the digits in front of the point. `left` of them did not fit. -/
def readTail (negative : Bool) (significand left : Nat) (c : Cursor) :
    Except DecodeError (Numeral × Cursor) :=
  if c.rest.head? = some '.' then readFraction negative significand left c
  else if atExponent c then readExponent negative significand left c
  else if left = 0 then .ok (ofInteger negative significand, c)
  else finish negative significand left c

/-- Reads a number behind its sign. -/
def readNumber (negative : Bool) (c : Cursor) : Except DecodeError (Numeral × Cursor) :=
  match c.rest with
  | [] => c.problem .endInValue
  | '0' :: _ =>
    if atDigit c.next then c.next.peekProblem .invalidNumber
    else readTail negative 0 0 c.next
  | ch :: _ =>
    if ch.isDigit then
      let (digits, after) := takeDigits c.rest c.place
      let (significand, left) := accumulate greatest 0 digits
      readTail negative significand left after
    else c.peekProblem .invalidNumber

/-- Passes over digits, at least one. -/
def skipDigits (c : Cursor) (missing : Cursor → Except DecodeError Cursor) :
    Except DecodeError Cursor :=
  if atDigit c then .ok (takeDigits c.rest c.place).2 else missing c

/-- Passes over an exponent, if there is one. -/
def skipExponent (c : Cursor) : Except DecodeError Cursor :=
  if atExponent c then
    let c := c.next
    let c := match c.rest with
      | '+' :: _ => c.next
      | '-' :: _ => c.next
      | _ => c
    skipDigits c (·.peekProblem .invalidNumber)
  else .ok c

/-- Passes over a number behind its sign. -/
def skipNumber (c : Cursor) : Except DecodeError Cursor := do
  let c ← match c.rest with
    | '0' :: _ => if atDigit c.next then c.next.peekProblem .invalidNumber else .ok c.next
    | _ => skipDigits c (·.peekProblem .invalidNumber)
  if c.rest.head? = some '.' then
    let c ← skipDigits c.next (·.peekProblem .invalidNumber)
    skipExponent c
  else skipExponent c

end Token

/-! ## Values -/

/-- What stands in the place of a value, in words. -/
def Numeral.message : Numeral → String
  | .unsigned n => "integer `" ++ toString n ++ "`"
  | .negative n => "integer `" ++ toString n ++ "`"
  | .real x => "floating point `" ++ String.ofList (Real.double x).text ++ "`"

namespace Token

mutual

/-- Passes over a value. -/
def skipValue : Nat → Cursor → Except DecodeError Cursor
  | 0, c => c.peekProblem .endInValue
  | fuel + 1, c =>
    let c := c.skipSpace
    match c.rest with
    | [] => c.peekProblem .endInValue
    | 'n' :: _ => readWord c.next "ull".toList
    | 't' :: _ => readWord c.next "rue".toList
    | 'f' :: _ => readWord c.next "alse".toList
    | '"' :: rest => skipString (rest.length + 1) c.next
    | '-' :: _ => skipNumber c.next
    | '[' :: _ =>
      let c := c.next.skipSpace
      match c.rest with
      | [] => c.peekProblem .endInList
      | ']' :: _ => .ok c.next
      | _ => skipItems fuel c
    | '{' :: _ =>
      let c := c.next.skipSpace
      match c.rest with
      | [] => c.peekProblem .endInObject
      | '}' :: _ => .ok c.next
      | _ => skipMembers fuel c
    | ch :: _ => if ch.isDigit then skipNumber c else c.peekProblem .expectedValue

/-- Passes over the items of a list, at least one. -/
def skipItems : Nat → Cursor → Except DecodeError Cursor
  | 0, c => c.peekProblem .endInList
  | fuel + 1, c => do
    let c ← skipValue fuel c
    let c := c.skipSpace
    match c.rest with
    | [] => c.peekProblem .endInList
    | ',' :: _ => skipItems fuel c.next
    | ']' :: _ => .ok c.next
    | _ => c.peekProblem .expectedListCommaOrEnd

/-- Passes over the members of an object, at least one. -/
def skipMembers : Nat → Cursor → Except DecodeError Cursor
  | 0, c => c.peekProblem .endInObject
  | fuel + 1, c => do
    let c := c.skipSpace
    let c ← match c.rest with
      | [] => c.peekProblem .endInObject
      | '"' :: rest => skipString (rest.length + 1) c.next
      | _ => c.peekProblem .keyNotText
    let c := c.skipSpace
    let c ← match c.rest with
      | [] => c.peekProblem .endInObject
      | ':' :: _ => .ok c.next
      | _ => c.peekProblem .expectedColon
    let c ← skipValue fuel c
    let c := c.skipSpace
    match c.rest with
    | [] => c.peekProblem .endInObject
    | ',' :: _ => skipMembers fuel c.next
    | '}' :: _ => .ok c.next
    | _ => c.peekProblem .expectedObjectCommaOrEnd

end

end Token

end AgentHost.Json
