import AgentHost.CommandLine
/-!
# Names that are close

How close a word is to a name: the share of characters that both have at about
the same place, less what stands in another order. A name is close to a word when
that measure is above seven tenths.
-/

namespace AgentHost.CommandLine.Similar

/-- How far apart equal characters may stand in words of these lengths. -/
def window (m n : Nat) : Nat := max m n / 2 - 1

/-- Marks the first unmarked place between `low` and `high` that holds `c`. -/
def mark (c : Char) (low high : Nat) : Nat → List (Char × Bool) → Option (List (Char × Bool))
  | _, [] => none
  | j, (d, used) :: rest =>
    if high ≤ j then none
    else if low ≤ j ∧ c = d ∧ !used then some ((d, true) :: rest)
    else (mark c low high (j + 1) rest).map ((d, used) :: ·)

/-- Pairs the characters of `a` from place `i` on with equal ones of `b`: those of
`a` that found a partner, and `b` with the partners marked. -/
def pair (width : Nat) : Nat → List Char → List (Char × Bool) → List Char × List (Char × Bool)
  | _, [], b => ([], b)
  | i, c :: rest, b =>
    match mark c (i - width) (i + width + 1) 0 b with
    | some b =>
      let (found, b) := pair width (i + 1) rest b
      (c :: found, b)
    | none => pair width (i + 1) rest b

/-- The measure as a fraction: three times its numerator and its denominator. -/
def closeness (a b : List Char) : Nat × Nat :=
  let m := a.length
  let n := b.length
  if m = 0 ∧ n = 0 then (3, 1)
  else
    let (found, marked) := pair (window m n) 0 a (b.map fun c => (c, false))
    let partners := (marked.filter (·.2)).map (·.1)
    let k := found.length
    let swapped := ((found.zip partners).filter fun (x, y) => x ≠ y).length / 2
    if k = 0 then (0, 1)
    else (k * n * k + k * m * k + (k - swapped) * m * n, m * n * k)

/-- The first measure is at most the second. -/
def atMost (p q : Nat × Nat) : Bool := p.1 * q.2 ≤ q.1 * p.2

/-- The measure is above seven tenths. -/
def isClose (p : Nat × Nat) : Bool := 21 * p.2 < 10 * p.1

/-- The option whose long name is closest to the word, if one is close; of two
that are equally close, the later. -/
def closest? (word : List Char) : Option Flag :=
  let candidates := (Flag.all.map fun f => (closeness word f.long.toList, f)).filter fun c =>
    isClose c.1
  candidates.foldl (fun best c => match best with
    | some b => if atMost b.1 c.1 then some c else some b
    | none => some c) none |>.map (·.2)

end AgentHost.CommandLine.Similar
