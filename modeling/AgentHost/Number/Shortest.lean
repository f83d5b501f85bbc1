import AgentHost.Number.Binary
/-!
# The fewest digits that read back

`digits` finds the shortest decimal that rounds to a given number, and among
those of that length the one nearest to it. It tries one digit, two digits, and
so on: on the grid of each length the number has two neighbours, and the first
grid with a neighbour inside the number's rounding interval wins.

A `Layout` says how digits are set out: within which exponents the point stands
among the digits, and how an exponent is written outside them.
-/

namespace AgentHost.Number

/-- Decimal digits, most significant first, with a point after `point` of them
(to the left of all of them where it is not positive). -/
structure Decimal where
  digits : List Nat
  point : Int
  deriving DecidableEq, Repr

namespace Shortest

/-- The digits of a natural number, most significant first. -/
def digitsOf (n : Nat) : List Nat :=
  if n < 10 then [n] else digitsOf (n / 10) ++ [n % 10]

/-- The reals that round to `m * 2 ^ e`, as bounds in units of `2 ^ (e - 2)`,
and whether the bounds themselves do. Below a power of two the grid is twice as
fine. -/
def interval (f : Binary.Format) (m : Nat) (e : Int) : Nat × Nat × Bool :=
  let low := if m = Nat.pow 2 (f.precision - 1) ∧ f.least < e then 4 * m - 1 else 4 * m - 2
  (low, 4 * m + 2, m % 2 = 0)

/-- The value of `num / den` in units of `10 ^ k`, rounded down. -/
def gridFloor (num den : Nat) (k : Int) : Nat :=
  (num * Nat.pow 10 (-k).toNat) / (den * Nat.pow 10 k.toNat)

/-- Compares `c * 10 ^ k` with `num / den`. -/
def compareGrid (c : Nat) (k : Int) (num den : Nat) : Ordering :=
  compare (c * Nat.pow 10 k.toNat * den) (num * Nat.pow 10 (-k).toNat)

/-- The multiple of `10 ^ k` nearest to the number that lies in its interval, if
there is one; of two that are equally near, the even one. -/
def onGrid? (f : Binary.Format) (m : Nat) (e : Int) (k : Int) : Option Nat :=
  let (low, high, closed) := interval f m e
  let (vn, vd) := Binary.scale (4 * m) 1 (e - 2)
  let (ln, ld) := Binary.scale low 1 (e - 2)
  let (hn, hd) := Binary.scale high 1 (e - 2)
  let c := gridFloor vn vd k
  let lowOk := match compareGrid c k ln ld with
    | .gt => true
    | .eq => closed
    | .lt => false
  let highOk := match compareGrid (c + 1) k hn hd with
    | .lt => true
    | .eq => closed
    | .gt => false
  match decide (c ≠ 0) && lowOk, highOk with
  | false, false => none
  | true, false => some c
  | false, true => some (c + 1)
  | true, true =>
    match compareGrid (2 * c + 1) k (2 * vn) vd with
    | .gt => some c
    | .lt => some (c + 1)
    | .eq => some (if c % 2 = 0 then c else c + 1)

/-- The digits of `c * 10 ^ k`, without zeros at the end. -/
def toDecimal (c : Nat) (k : Int) : Decimal :=
  let ds := digitsOf c
  let kept := (ds.reverse.dropWhile (· == 0)).reverse
  ⟨kept, ds.length + k⟩

/-- Tries the grids from coarse to fine. -/
def search (f : Binary.Format) (m : Nat) (e : Int) : Nat → Int → Decimal
  | 0, k => toDecimal (let (vn, vd) := Binary.scale m 1 e; gridFloor vn vd k) k
  | n + 1, k =>
    match onGrid? f m e k with
    | some c => toDecimal c k
    | none => search f m e n (k - 1)

/-- The shortest decimal that rounds to `m * 2 ^ e`, for a positive `m`. -/
def digits (f : Binary.Format) (m : Nat) (e : Int) : Decimal :=
  let (vn, vd) := Binary.scale m 1 e
  let top : Int := ((Binary.magnitude vn vd + 1) * 30103) / 100000 + 1
  search f m e 24 top

end Shortest

/-- How the digits of a number are set out. Scientific exponents from `lowest`
to `highest` put the point among the digits; the others are written after an
`e`. A number without a fraction ends in `.0`. -/
structure Layout where
  lowest : Option Int
  highest : Option Int
  plusSign : Bool

namespace Layout

/-- The characters of digits. -/
def digitChars (ds : List Nat) : List Char :=
  ds.map fun d => Char.ofNat (48 + d)

/-- Digits with the point among them. -/
def positional (d : Decimal) : List Char :=
  let n : Int := d.digits.length
  if d.point ≤ 0 then
    ['0', '.'] ++ List.replicate (-d.point).toNat '0' ++ digitChars d.digits
  else if n ≤ d.point then
    digitChars d.digits ++ List.replicate (d.point - n).toNat '0' ++ ['.', '0']
  else
    digitChars (d.digits.take d.point.toNat) ++ ['.'] ++ digitChars (d.digits.drop d.point.toNat)

/-- Digits with an exponent after them. -/
def scientific (l : Layout) (d : Decimal) : List Char :=
  let e := d.point - 1
  let sign : List Char := if e < 0 then ['-'] else if l.plusSign then ['+'] else []
  let fraction := digitChars (d.digits.drop 1)
  digitChars (d.digits.take 1) ++ (if fraction.isEmpty then [] else '.' :: fraction)
    ++ ['e'] ++ sign ++ digitChars (Shortest.digitsOf e.natAbs)

/-- The text of a finite number's magnitude. -/
def magnitude (l : Layout) (f : Binary.Format) (m : Nat) (e : Int) : List Char :=
  if m = 0 then ['0', '.', '0']
  else
    let d := Shortest.digits f m e
    let x := d.point - 1
    let inside := l.lowest.all (· ≤ x) && l.highest.all (x ≤ ·)
    if inside then positional d else l.scientific d

/-- The text of a number. -/
def text (l : Layout) (f : Binary.Format) : Binary → String
  | .nan => "NaN"
  | .infinite true => "-inf"
  | .infinite false => "inf"
  | .finite n m e => String.ofList ((if n then ['-'] else []) ++ l.magnitude f m e)

/-- Every digit with the point among them, whatever the size. -/
def plain : Layout := ⟨none, none, false⟩

end Layout

end AgentHost.Number
