/-!
# Spans of time

A span is a number of milliseconds. In words it is a decimal number of seconds,
or, below a second, of milliseconds.
-/

namespace AgentHost

/-- A span of time in milliseconds. -/
structure Duration where
  millis : Nat
  deriving DecidableEq, Repr

namespace Duration

/-- A span of whole seconds. -/
def ofSeconds (n : Nat) : Duration := ⟨n * 1000⟩

/-- The seconds of the span, rounded down. -/
def seconds (d : Duration) : Nat := d.millis / 1000

/-- Three digits, without the zeros at the end. -/
def fractionDigits (n : Nat) : List Char :=
  let digits := [n / 100 % 10, n / 10 % 10, n % 10]
  ((digits.reverse.dropWhile (· == 0)).reverse).map fun d => Char.ofNat (48 + d)

/-- The span in words. -/
def shown (d : Duration) : String :=
  if d.millis = 0 then "0ns"
  else if d.millis < 1000 then toString d.millis ++ "ms"
  else
    let fraction := fractionDigits (d.millis % 1000)
    toString d.seconds ++ (if fraction.isEmpty then "" else "." ++ String.ofList fraction) ++ "s"

end Duration

end AgentHost
