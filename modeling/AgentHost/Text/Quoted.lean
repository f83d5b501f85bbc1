import AgentHost.Text.Hidden
import AgentHost.Text.Utf8
/-!
# Quoted text

A value shown to a reader stands between double quotes, on one line, with
nothing in it that could be mistaken for something else: a quote and a
backslash take a backslash before them, the usual controls have their letters,
and every other hidden character is written as its code point in hexadecimal.

`Quoted.ofString` shows a text, `Quoted.ofBytes` a byte string: there, a
fragment that is no character is shown byte by byte, and an apostrophe takes a
backslash too.
-/

namespace AgentHost.Text.Quoted

/-- The letters of hexadecimal, lower case. -/
def hexDigit (n : Nat) : Char :=
  if n < 10 then Char.ofNat (48 + n) else Char.ofNat (87 + n)

/-- A number in hexadecimal, lower case, without leading zeros. -/
def hex (n : Nat) : List Char :=
  if n < 16 then [hexDigit n] else hex (n / 16) ++ [hexDigit (n % 16)]

/-- How one character is written. `apostrophe` says whether an apostrophe takes
a backslash. -/
def char (apostrophe : Bool) (c : Char) : List Char :=
  if c = '\x00' then ['\\', '0']
  else if c = '\t' then ['\\', 't']
  else if c = '\n' then ['\\', 'n']
  else if c = '\r' then ['\\', 'r']
  else if c = '\\' then ['\\', '\\']
  else if c = '"' then ['\\', '"']
  else if c = '\'' ∧ apostrophe then ['\\', '\'']
  else if isHidden c then ['\\', 'u', '{'] ++ hex c.toNat ++ ['}']
  else [c]

/-- A byte that belongs to no character: two upper-case digits. -/
def byte (b : UInt8) : List Char :=
  let digit (n : Nat) : Char := if n < 10 then Char.ofNat (48 + n) else Char.ofNat (55 + n)
  ['\\', 'x', digit (b.toNat / 16), digit (b.toNat % 16)]

/-- A text between quotes. -/
def ofString (s : String) : String :=
  String.ofList (['"'] ++ s.toList.flatMap (char false) ++ ['"'])

/-- A byte string between quotes. -/
def ofBytes (bytes : Bytes) : String :=
  let piece : Utf8.Piece → List Char
    | .char c => char true c
    | .broken bs => bs.flatMap byte
  String.ofList (['"'] ++ (Utf8.pieces bytes).flatMap piece ++ ['"'])

end AgentHost.Text.Quoted
