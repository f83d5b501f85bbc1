import AgentHost.Number.Numeral
/-!
# JSON as a plain tree

`Value.parse` reads a text as one JSON value with nothing but whitespace around
it. It knows no types and reports no errors: a text is JSON or it is not. A number
is kept as it is written, and an object keeps its members in order, also those
whose names occur twice.
-/

namespace AgentHost.Json

/-- A JSON value. -/
inductive Value where
  | null
  | bool (b : Bool)
  | number (literal : List Char)
  | string (text : List Char)
  | array (items : List Value)
  | object (members : List (List Char × Value))
  deriving Repr, Inhabited

/-- The characters between tokens. -/
def isSpace (c : Char) : Bool := c == ' ' || c == '\n' || c == '\t' || c == '\r'

/-- The value of a hexadecimal digit. -/
def hexValue? (c : Char) : Option Nat :=
  (Number.Numeral.digit? c).filter (· < 16)

/-- The value of the four hexadecimal digits at the front of a text, and the rest. -/
def hexFour? : List Char → Option (Nat × List Char)
  | a :: b :: c :: d :: rest =>
    match hexValue? a, hexValue? b, hexValue? c, hexValue? d with
    | some a, some b, some c, some d => some (((a * 16 + b) * 16 + c) * 16 + d, rest)
    | _, _, _, _ => none
  | _ => none

/-- The first half of a character that takes two escapes. -/
def isLeading (n : Nat) : Bool := 0xD800 ≤ n && n ≤ 0xDBFF

/-- The second half of a character that takes two escapes. -/
def isTrailing (n : Nat) : Bool := 0xDC00 ≤ n && n ≤ 0xDFFF

/-- The character of two halves. -/
def joinHalves (leading trailing : Nat) : Char :=
  Char.ofNat ((leading - 0xD800) * 0x400 + (trailing - 0xDC00) + 0x10000)

/-- The character that a letter behind a backslash stands for. -/
def shortEscape? : Char → Option Char
  | '"' => some '"'
  | '\\' => some '\\'
  | '/' => some '/'
  | 'b' => some '\x08'
  | 'f' => some '\x0c'
  | 'n' => some '\n'
  | 'r' => some '\r'
  | 't' => some '\t'
  | _ => none

namespace Value

/-- Past the whitespace. -/
def skipSpace (cs : List Char) : List Char := cs.dropWhile isSpace

/-- Reads the escape behind a backslash. -/
def parseEscape : List Char → Option (Char × List Char)
  | 'u' :: rest =>
    match hexFour? rest with
    | some (n, rest) =>
      if isLeading n then
        match rest with
        | '\\' :: 'u' :: more =>
          match hexFour? more with
          | some (m, rest) => if isTrailing m then some (joinHalves n m, rest) else none
          | none => none
        | _ => none
      else if isTrailing n then none
      else some (Char.ofNat n, rest)
    | none => none
  | c :: rest => (shortEscape? c).map fun e => (e, rest)
  | [] => none

/-- Reads a string behind its opening quote. -/
def parseString : Nat → List Char → Option (List Char × List Char)
  | 0, _ => none
  | fuel + 1, cs =>
    match cs with
    | [] => none
    | '"' :: rest => some ([], rest)
    | '\\' :: rest =>
      match parseEscape rest with
      | some (c, rest) => (parseString fuel rest).map fun (text, rest) => (c :: text, rest)
      | none => none
    | c :: rest =>
      if c < ' ' then none
      else (parseString fuel rest).map fun (text, rest) => (c :: text, rest)

/-- Splits digits off, at least one. -/
def parseDigits (cs : List Char) : Option (List Char × List Char) :=
  let digits := cs.takeWhile Char.isDigit
  if digits.isEmpty then none else some (digits, cs.dropWhile Char.isDigit)

/-- Splits the whole part of a number off: a zero, or digits that start with none. -/
def parseWhole : List Char → Option (List Char × List Char)
  | '0' :: rest => some (['0'], rest)
  | cs => parseDigits cs

/-- Splits a fraction off, if there is one. -/
def parseFraction : List Char → Option (List Char × List Char)
  | '.' :: rest => (parseDigits rest).map fun (digits, rest) => ('.' :: digits, rest)
  | cs => some ([], cs)

/-- Splits an exponent off, if there is one. -/
def parseExponent : List Char → Option (List Char × List Char)
  | c :: rest =>
    if c = 'e' ∨ c = 'E' then
      let (sign, rest) := match rest with
        | '+' :: rest => (['+'], rest)
        | '-' :: rest => (['-'], rest)
        | rest => ([], rest)
      (parseDigits rest).map fun (digits, rest) => (c :: sign ++ digits, rest)
    else some ([], c :: rest)
  | [] => some ([], [])

/-- Splits a number off. -/
def parseNumber (cs : List Char) : Option (List Char × List Char) := do
  let (sign, cs) := match cs with
    | '-' :: rest => (['-'], rest)
    | cs => ([], cs)
  let (whole, cs) ← parseWhole cs
  let (fraction, cs) ← parseFraction cs
  let (exponent, cs) ← parseExponent cs
  some (sign ++ whole ++ fraction ++ exponent, cs)

mutual

/-- Reads a value behind whitespace. -/
def parseValue : Nat → List Char → Option (Value × List Char)
  | 0, _ => none
  | fuel + 1, cs =>
    match skipSpace cs with
    | 'n' :: 'u' :: 'l' :: 'l' :: rest => some (.null, rest)
    | 't' :: 'r' :: 'u' :: 'e' :: rest => some (.bool true, rest)
    | 'f' :: 'a' :: 'l' :: 's' :: 'e' :: rest => some (.bool false, rest)
    | '"' :: rest =>
      (parseString (rest.length + 1) rest).map fun (text, rest) => (.string text, rest)
    | '[' :: rest =>
      match skipSpace rest with
      | ']' :: rest => some (.array [], rest)
      | _ => (parseItems fuel rest).map fun (items, rest) => (.array items, rest)
    | '{' :: rest =>
      match skipSpace rest with
      | '}' :: rest => some (.object [], rest)
      | _ => (parseMembers fuel rest).map fun (members, rest) => (.object members, rest)
    | cs => (parseNumber cs).map fun (literal, rest) => (.number literal, rest)

/-- Reads the items of an array up to its closing bracket, at least one. -/
def parseItems : Nat → List Char → Option (List Value × List Char)
  | 0, _ => none
  | fuel + 1, cs =>
    match parseValue fuel cs with
    | none => none
    | some (v, rest) =>
      match skipSpace rest with
      | ',' :: rest => (parseItems fuel rest).map fun (vs, rest) => (v :: vs, rest)
      | ']' :: rest => some ([v], rest)
      | _ => none

/-- Reads the members of an object up to its closing brace, at least one. -/
def parseMembers : Nat → List Char → Option (List (List Char × Value) × List Char)
  | 0, _ => none
  | fuel + 1, cs =>
    match skipSpace cs with
    | '"' :: rest =>
      match parseString (rest.length + 1) rest with
      | none => none
      | some (name, rest) =>
        match skipSpace rest with
        | ':' :: rest =>
          match parseValue fuel rest with
          | none => none
          | some (v, rest) =>
            match skipSpace rest with
            | ',' :: rest =>
              (parseMembers fuel rest).map fun (ms, rest) => ((name, v) :: ms, rest)
            | '}' :: rest => some ([(name, v)], rest)
            | _ => none
        | _ => none
    | _ => none

end

/-- Reads a text as one value. -/
def parse (text : List Char) : Option Value :=
  match parseValue (text.length + 1) text with
  | some (v, rest) => if (skipSpace rest).isEmpty then some v else none
  | none => none

/-- The value of the last member of that name. -/
def get? (v : Value) (name : String) : Option Value :=
  match v with
  | .object members => (members.reverse.find? (fun m => m.1 == name.toList)).map (·.2)
  | _ => none

end Value

end AgentHost.Json
