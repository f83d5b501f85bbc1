import AgentHost.Json.Value
import AgentHost.Number.Shortest
/-!
# Writing JSON

A `Payload` is a value to be written as JSON: scalars, lists, maps, records with
named fields, and a value that cannot be written at all. `Payload.encode` writes
it without any whitespace, or says why it cannot.

A key of a map has to be a text, a truth value, an integer or a finite number.
-/

namespace AgentHost.Json

open Number

/-- A floating-point number and the format it is in. -/
inductive Real where
  | single (x : Binary)
  | double (x : Binary)
  deriving DecidableEq, Repr

namespace Real

/-- Numbers of 64 bits: the point stands among the digits from 0.00001 to below
10^16. -/
def doubleLayout : Layout := ⟨some (-5), some 15, true⟩

/-- Numbers of 32 bits: the point stands among the digits from 0.000001 to below
10^13. -/
def singleLayout : Layout := ⟨some (-6), some 12, true⟩

/-- The number. -/
def number : Real → Binary
  | .single x => x
  | .double x => x

/-- The number is finite. -/
def isFinite (r : Real) : Bool :=
  match r.number with
  | .finite .. => true
  | _ => false

/-- The text of a finite number. -/
def text : Real → List Char
  | .single x => (singleLayout.text Binary.single x).toList
  | .double x => (doubleLayout.text Binary.double x).toList

end Real

/-- A value to be written. -/
inductive Payload where
  | null
  | bool (b : Bool)
  | integer (n : Int)
  | real (x : Real)
  | text (s : String)
  /-- A list of bytes, which cannot be a key. -/
  | bytes (bs : List UInt8)
  /-- A value in a wrapping that does not show. -/
  | wrapped (inner : Payload)
  | list (items : List Payload)
  | map (entries : List (Payload × Payload))
  | record (fields : List (String × Payload))
  /-- A value that cannot be written. -/
  | failing (reason : String)
  deriving Inhabited

/-- Why a payload cannot be written. -/
inductive EncodeError where
  | keyNotText
  | keyNotFinite
  | failed (reason : String)
  deriving DecidableEq, Repr

/-- The reason in words. -/
def EncodeError.message : EncodeError → String
  | .keyNotText => "key must be a string"
  | .keyNotFinite => "float key must be finite (got NaN or +/-inf)"
  | .failed reason => reason

/-! ## Text -/

/-- The digits of hexadecimal, lower case. -/
def hexDigit (n : Nat) : Char :=
  if n < 10 then Char.ofNat (48 + n) else Char.ofNat (87 + n)

/-- How a character is written between quotes. -/
def escape (c : Char) : List Char :=
  if c = '"' then ['\\', '"']
  else if c = '\\' then ['\\', '\\']
  else if c = '\x08' then ['\\', 'b']
  else if c = '\t' then ['\\', 't']
  else if c = '\n' then ['\\', 'n']
  else if c = '\x0c' then ['\\', 'f']
  else if c = '\r' then ['\\', 'r']
  else if c < ' ' then ['\\', 'u', '0', '0', hexDigit (c.toNat / 16), hexDigit (c.toNat % 16)]
  else [c]

/-- A text between quotes. -/
def quote (cs : List Char) : List Char :=
  '"' :: cs.flatMap escape ++ ['"']

/-- An integer in decimal. -/
def integerText (n : Int) : List Char :=
  (if n < 0 then ['-'] else []) ++ Layout.digitChars (Shortest.digitsOf n.natAbs)

/-- Parts with commas between them. -/
def separated : List (List Char) → List Char
  | [] => []
  | [part] => part
  | part :: rest => part ++ ',' :: separated rest

/-! ## Payloads -/

namespace Payload

/-- Writes a key of a map. -/
def encodeKey : Payload → Except EncodeError (List Char)
  | .text s => .ok (quote s.toList)
  | .bool b => .ok (quote (toString b).toList)
  | .integer n => .ok (quote (integerText n))
  | .real x => if x.isFinite then .ok (quote x.text) else .error .keyNotFinite
  | .wrapped inner => inner.encodeKey
  | .failing reason => .error (.failed reason)
  | .null | .bytes _ | .list _ | .map _ | .record _ => .error .keyNotText

mutual

/-- Writes a payload. -/
def encode : Payload → Except EncodeError (List Char)
  | .null => .ok "null".toList
  | .bool b => .ok (toString b).toList
  | .integer n => .ok (integerText n)
  | .real x => .ok (if x.isFinite then x.text else "null".toList)
  | .text s => .ok (quote s.toList)
  | .bytes bs => .ok ('[' :: separated (bs.map fun b => integerText b.toNat) ++ [']'])
  | .wrapped inner => inner.encode
  | .list items => (encodeItems items).map fun parts => '[' :: separated parts ++ [']']
  | .map entries => (encodeEntries entries).map fun parts => '{' :: separated parts ++ ['}']
  | .record fields => (encodeFields fields).map fun parts => '{' :: separated parts ++ ['}']
  | .failing reason => .error (.failed reason)

/-- Writes the items of a list. -/
def encodeItems : List Payload → Except EncodeError (List (List Char))
  | [] => .ok []
  | p :: rest => do
    let part ← p.encode
    let parts ← encodeItems rest
    .ok (part :: parts)

/-- Writes the entries of a map. -/
def encodeEntries : List (Payload × Payload) → Except EncodeError (List (List Char))
  | [] => .ok []
  | (key, value) :: rest => do
    let name ← key.encodeKey
    let part ← value.encode
    let parts ← encodeEntries rest
    .ok ((name ++ ':' :: part) :: parts)

/-- Writes the fields of a record. -/
def encodeFields : List (String × Payload) → Except EncodeError (List (List Char))
  | [] => .ok []
  | (name, value) :: rest => do
    let part ← value.encode
    let parts ← encodeFields rest
    .ok ((quote name.toList ++ ':' :: part) :: parts)

end

end Payload

end AgentHost.Json
