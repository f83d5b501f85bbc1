import AgentHost.Number.Numeral
import AgentHost.Number.Shortest
/-!
# What a plain scalar denotes

A plain scalar denotes nothing, a truth value, an integer, a floating-point
number, or else just its text. Integers are written in decimal or, behind `0x`,
`0o` and `0b`, in other radixes; a decimal with a zero in front of another digit
is text.
-/

namespace AgentHost.Yaml.Scalar

open Number

/-- What a scalar denotes. -/
inductive Meaning where
  | null
  | bool (b : Bool)
  | integer (n : Int)
  | float (x : Binary)
  | text
  deriving DecidableEq, Repr

/-- The words for nothing. -/
def isNull (cs : List Char) : Bool :=
  ["null", "Null", "NULL", "~"].any fun w => w.toList == cs

/-- The words for truth values. -/
def bool? (cs : List Char) : Option Bool :=
  if ["true", "True", "TRUE"].any fun w => w.toList == cs then some true
  else if ["false", "False", "FALSE"].any fun w => w.toList == cs then some false
  else none

/-- A decimal of two digits or more that starts with a zero. -/
def hasSpareZero (cs : List Char) : Bool :=
  match (Numeral.splitSign cs).2 with
  | '0' :: rest => !rest.isEmpty && rest.all Char.isDigit
  | _ => false

/-- The value of an unsigned numeral behind its sign: a radix and its digits, or
decimal digits without a spare zero. -/
def magnitude? : List Char → Option Nat
  | '0' :: 'x' :: digits => Numeral.ofDigits? 16 digits
  | '0' :: 'o' :: digits => Numeral.ofDigits? 8 digits
  | '0' :: 'b' :: digits => Numeral.ofDigits? 2 digits
  | cs => if hasSpareZero cs then none else Numeral.ofDigits? 10 cs

/-- The value of a numeral with an optional plus. -/
def unsigned? : List Char → Option Nat
  | '+' :: rest => magnitude? rest
  | cs => magnitude? cs

/-- The value of a numeral with an optional sign. -/
def signed? : List Char → Option Int
  | '-' :: rest => (magnitude? rest).map fun n => -(n : Int)
  | cs => (unsigned? cs).map fun n => (n : Int)

/-- The value of a numeral that fits into 128 bits, signed where it is negative. -/
def integer? (cs : List Char) : Option Int :=
  (signed? cs).filter fun n => -(Nat.pow 2 127 : Int) ≤ n && n < (Nat.pow 2 128 : Int)

/-- The words for what is no finite number. -/
def unbounded? (cs : List Char) : Option Binary :=
  let oneOf (words : List String) : Bool := words.any fun w => w.toList == cs
  if oneOf [".inf", ".Inf", ".INF", "+.inf", "+.Inf", "+.INF"] then some (.infinite false)
  else if oneOf ["-.inf", "-.Inf", "-.INF"] then some (.infinite true)
  else if oneOf [".nan", ".NaN", ".NAN"] then some .nan
  else none

/-- The number that a scalar denotes, if it is finite or has one of the words. -/
def float? (cs : List Char) : Option Binary :=
  match unbounded? cs with
  | some x => some x
  | none => (Numeral.decimal? Binary.double cs).filter fun
    | .finite .. => true
    | _ => false

/-- What a plain scalar denotes. -/
def meaning (cs : List Char) : Meaning :=
  if cs.isEmpty || isNull cs then .null
  else match bool? cs with
  | some b => .bool b
  | none =>
    match integer? cs with
    | some n => .integer n
    | none =>
      if hasSpareZero cs then .text
      else match float? cs with
        | some x => .float x
        | none => .text

end AgentHost.Yaml.Scalar
