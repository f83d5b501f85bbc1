/-!
# Binary floating-point numbers

A finite number is a sign, a significand and a power of two, kept exactly. A
`Format` says how many bits the significand has and which exponents exist;
`double` and `single` are the two in use.

`ofRatio` rounds a fraction to the nearest number of a format, a tie to the even
significand. Products, quotients and decimal numerals are all rounded through
it, so each is the exact result rounded once.
-/

namespace AgentHost.Number

/-- A floating-point number. A finite one is `significand * 2 ^ exponent`, with
the sign in front. -/
inductive Binary where
  | nan
  | infinite (negative : Bool)
  | finite (negative : Bool) (significand : Nat) (exponent : Int)
  deriving DecidableEq, Repr

namespace Binary

/-- The numbers that exist: significands below `2 ^ precision`, exponents from
`least` to `greatest`. -/
structure Format where
  precision : Nat
  least : Int
  greatest : Int

/-- The format of 64 bits. -/
def double : Format := ⟨53, -1074, 971⟩

/-- The format of 32 bits. -/
def single : Format := ⟨24, -149, 104⟩

/-- The fraction `num / den` times a power of two, as a fraction. -/
def scale (num den : Nat) (e : Int) : Nat × Nat :=
  (num * Nat.pow 2 e.toNat, den * Nat.pow 2 (-e).toNat)

/-- The greatest `t` with `2 ^ t ≤ num / den`, for positive `num` and `den`. -/
def magnitude (num den : Nat) : Int :=
  let guess : Int := (num.log2 : Int) - den.log2
  let (a, b) := scale num den (-guess)
  if b ≤ a then guess else guess - 1

/-- The quotient `a / b` rounded to the nearest integer, a tie to the even one. -/
def roundHalfEven (a b : Nat) : Nat :=
  let q := a / b
  let r := a % b
  if 2 * r < b then q
  else if b < 2 * r then q + 1
  else if q % 2 = 0 then q else q + 1

/-- The number of the format nearest to `num / den`; beyond the greatest, an
infinity. -/
def ofRatio (f : Format) (negative : Bool) (num den : Nat) : Binary :=
  if num = 0 ∨ den = 0 then .finite negative 0 f.least
  else
    let e := max (magnitude num den - (f.precision - 1 : Nat)) f.least
    let (a, b) := scale num den (-e)
    let m := roundHalfEven a b
    let (m, e) := if m = Nat.pow 2 f.precision then (Nat.pow 2 (f.precision - 1), e + 1) else (m, e)
    if f.greatest < e then .infinite negative else .finite negative m e

/-- A natural number, rounded. -/
def ofNat (f : Format) (n : Nat) : Binary :=
  ofRatio f false n 1


/-- The decimal `significand * 10 ^ exponent`, rounded. The exponent is held to
a range outside which every answer is the same. -/
def ofDecimal (f : Format) (negative : Bool) (significand : Nat) (exponent : Int) : Binary :=
  let digits : Int := significand.log2
  if significand = 0 then ofRatio f negative 0 1
  else if 2000 < exponent then .infinite negative
  else if exponent < -2000 - digits then ofRatio f negative 0 1
  else if 0 ≤ exponent then ofRatio f negative (significand * Nat.pow 10 exponent.toNat) 1
  else ofRatio f negative significand (Nat.pow 10 (-exponent).toNat)

/-- The number with the other sign. -/
def neg : Binary → Binary
  | .nan => .nan
  | .infinite n => .infinite (!n)
  | .finite n m e => .finite (!n) m e

/-- The product of two positive finite numbers, rounded. -/
def mul (f : Format) : Binary → Binary → Binary
  | .finite _ m e, .finite _ m' e' =>
    let (a, b) := scale (m * m') 1 (e + e')
    ofRatio f false a b
  | _, _ => .infinite false

/-- The quotient of two positive finite numbers, rounded. -/
def div (f : Format) : Binary → Binary → Binary
  | .finite _ m e, .finite _ m' e' =>
    let (a, b) := scale m m' (e - e')
    ofRatio f false a b
  | _, _ => .infinite false

/-- The number is zero. -/
def isZero : Binary → Bool
  | .finite _ 0 _ => true
  | _ => false

end Binary

end AgentHost.Number
