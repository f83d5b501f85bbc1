import AgentHost.Number.Binary
/-!
# Numerals

Reading digits. `ofDigits? radix` accepts one digit or more of a radix and
nothing else; `decimal?` accepts a decimal with an optional point and an optional
exponent, and rounds it to the nearest binary number.
-/

namespace AgentHost.Number.Numeral

/-- The value of a digit, a letter of either case counting from ten. -/
def digit? (c : Char) : Option Nat :=
  if c.isDigit then some (c.toNat - '0'.toNat)
  else if 'a' ≤ c ∧ c ≤ 'z' then some (c.toNat - 'a'.toNat + 10)
  else if 'A' ≤ c ∧ c ≤ 'Z' then some (c.toNat - 'A'.toNat + 10)
  else none

/-- Reads digits of a radix behind those whose value is `value`. -/
def digitsFrom? (radix value : Nat) : List Char → Option Nat
  | [] => some value
  | c :: rest =>
    match digit? c with
    | some d => if d < radix then digitsFrom? radix (value * radix + d) rest else none
    | none => none

/-- The value of one digit or more. -/
def ofDigits? (radix : Nat) : List Char → Option Nat
  | [] => none
  | cs => digitsFrom? radix 0 cs

/-- Splits a sign off: whether it is a minus, and the rest. -/
def splitSign : List Char → Bool × List Char
  | '-' :: rest => (true, rest)
  | '+' :: rest => (false, rest)
  | cs => (false, cs)

/-- The value of decimal digits, none counting as zero. -/
def valueOf (cs : List Char) : Nat := (digitsFrom? 10 0 cs).getD 0

/-- Reads an exponent: nothing, or an `e`, an optional sign and digits. -/
def exponent? : List Char → Option Int
  | [] => some 0
  | c :: rest =>
    if c = 'e' ∨ c = 'E' then
      let (negative, digits) := splitSign rest
      (ofDigits? 10 digits).map fun n => if negative then -(n : Int) else n
    else none

/-- Reads a decimal without a sign as digits and a power of ten: `12.5e3` is 125
times the second power. -/
def parts? (cs : List Char) : Option (Nat × Int) :=
  let whole := cs.takeWhile Char.isDigit
  let rest := cs.dropWhile Char.isDigit
  let (fraction, rest) := match rest with
    | '.' :: rest => (rest.takeWhile Char.isDigit, rest.dropWhile Char.isDigit)
    | rest => ([], rest)
  if whole.isEmpty && fraction.isEmpty then none
  else (exponent? rest).map fun e => (valueOf (whole ++ fraction), e - fraction.length)

/-- The number that a decimal with an optional sign denotes, rounded. -/
def decimal? (f : Binary.Format) (cs : List Char) : Option Binary :=
  let (negative, rest) := splitSign cs
  (parts? rest).map fun (digits, e) => Binary.ofDecimal f negative digits e

end AgentHost.Number.Numeral
