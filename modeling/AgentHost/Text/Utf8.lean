/-!
# Bytes that may or may not be text

Arguments, paths and file contents arrive as bytes. `Utf8.pieces` cuts a byte
string, from left to right, into characters and broken fragments; a fragment is
the longest run that could have begun a character but does not finish one.

`decode?` is the text when there is no fragment, `lossy` puts the replacement
character in the place of each fragment, and `encode` goes back to bytes.
-/

namespace AgentHost.Text

/-- A string of bytes, with no claim that it is text. -/
abbrev Bytes := List UInt8

namespace Utf8

/-- The bytes of a text. -/
def encode (cs : List Char) : Bytes :=
  cs.flatMap String.utf8EncodeChar

/-- The bytes of a string. -/
def ofString (s : String) : Bytes :=
  encode s.toList

/-- One step of a cut: a character, or a fragment that is no character. -/
inductive Piece where
  | char (c : Char)
  | broken (bytes : Bytes)
  deriving DecidableEq, Repr

/-- What a leading byte promises: how many bytes follow, the bits it carries,
and the range the next byte has to lie in. -/
structure Lead where
  following : Nat
  bits : Nat
  low : UInt8
  high : UInt8

/-- The leading bytes of sequences of two, three and four bytes. The narrowed
ranges keep out overlong forms, surrogates and values above U+10FFFF. -/
def lead? (b : UInt8) : Option Lead :=
  if 0xC2 ≤ b ∧ b ≤ 0xDF then some ⟨1, b.toNat - 0xC0, 0x80, 0xBF⟩
  else if b = 0xE0 then some ⟨2, 0, 0xA0, 0xBF⟩
  else if b = 0xED then some ⟨2, 0xD, 0x80, 0x9F⟩
  else if 0xE1 ≤ b ∧ b ≤ 0xEF then some ⟨2, b.toNat - 0xE0, 0x80, 0xBF⟩
  else if b = 0xF0 then some ⟨3, 0, 0x90, 0xBF⟩
  else if b = 0xF4 then some ⟨3, 4, 0x80, 0x8F⟩
  else if 0xF1 ≤ b ∧ b ≤ 0xF3 then some ⟨3, b.toNat - 0xF0, 0x80, 0xBF⟩
  else none

/-- Reads the bytes that a leading byte promised. `seen` are the bytes taken so
far, `bits` the value they carry. -/
def follow (seen : Bytes) (bits : Nat) : Nat → UInt8 → UInt8 → Bytes → Piece × Bytes
  | 0, _, _, rest => (.char (Char.ofNat bits), rest)
  | _ + 1, _, _, [] => (.broken seen, [])
  | n + 1, low, high, b :: rest =>
    if low ≤ b ∧ b ≤ high then
      follow (seen ++ [b]) (bits * 64 + (b.toNat - 0x80)) n 0x80 0xBF rest
    else (.broken seen, b :: rest)

/-- The first piece of a byte string that starts with `b`, and what is left. -/
def first (b : UInt8) (rest : Bytes) : Piece × Bytes :=
  if b < 0x80 then (.char (Char.ofNat b.toNat), rest)
  else match lead? b with
    | none => (.broken [b], rest)
    | some l => follow [b] l.bits l.following l.low l.high rest

theorem length_follow_le (n : Nat) : ∀ (seen : Bytes) (bits : Nat) (low high : UInt8) (rest : Bytes),
    (follow seen bits n low high rest).2.length ≤ rest.length := by
  induction n with
  | zero => intro _ _ _ _ rest; simp [follow]
  | succ n ih =>
    intro seen bits low high rest
    cases rest with
    | nil => simp [follow]
    | cons b rest =>
      simp only [follow]
      split
      · exact Nat.le_trans (ih _ _ _ _ _) (by simp)
      · simp

theorem length_first_le (b : UInt8) (rest : Bytes) : (first b rest).2.length ≤ rest.length := by
  unfold first
  split
  · simp
  · split
    · simp
    · exact length_follow_le ..

/-- Cuts a byte string into characters and broken fragments. -/
def pieces : Bytes → List Piece
  | [] => []
  | b :: rest => (first b rest).1 :: pieces (first b rest).2
  termination_by bytes => bytes.length
  decreasing_by
    have := length_first_le b rest
    simp only [List.length_cons]
    omega

/-- The character of a piece, if it is one. -/
def Piece.char? : Piece → Option Char
  | .char c => some c
  | .broken _ => none

/-- The character that stands for a piece in lossy text. -/
def Piece.shown : Piece → Char
  | .char c => c
  | .broken _ => '\ufffd'

/-- The text that the bytes spell, if they spell one. -/
def decode? (bytes : Bytes) : Option (List Char) :=
  (pieces bytes).mapM Piece.char?

/-- The bytes as text, with U+FFFD for every broken fragment. -/
def lossy (bytes : Bytes) : String :=
  String.ofList ((pieces bytes).map Piece.shown)

end Utf8

end AgentHost.Text
