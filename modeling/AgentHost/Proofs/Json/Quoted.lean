import AgentHost.Json.Payload
/-!
# Text between quotes

A character is written in one of three ways: with a letter behind a backslash,
with its code, or as it is. The plain reader takes back each of them, and so the
whole of a quoted text.
-/

namespace AgentHost.Json

/-! ## How a character is written -/

/-- The three ways to write a character. -/
theorem escape_cases (c : Char) :
    (∃ letter, escape c = ['\\', letter] ∧ letter ≠ 'u' ∧ shortEscape? letter = some c) ∨
      (c < ' ' ∧ escape c = ['\\', 'u', '0', '0', hexDigit (c.toNat / 16), hexDigit (c.toNat % 16)]) ∨
      (escape c = [c] ∧ c ≠ '"' ∧ c ≠ '\\' ∧ ¬ c < ' ') := by
  by_cases hshort : c = '"' ∨ c = '\\' ∨ c = '\x08' ∨ c = '\t' ∨ c = '\n' ∨ c = '\x0c' ∨ c = '\r'
  · left
    rcases hshort with rfl | rfl | rfl | rfl | rfl | rfl | rfl <;> exact ⟨_, rfl, by decide, rfl⟩
  · right
    simp only [not_or] at hshort
    obtain ⟨hquote, hbackslash, h1, h2, h3, h4, h5⟩ := hshort
    have hescape : escape c =
        if c < ' ' then ['\\', 'u', '0', '0', hexDigit (c.toNat / 16), hexDigit (c.toNat % 16)] else [c] := by
      simp only [escape, if_neg hquote, if_neg hbackslash, if_neg h1, if_neg h2, if_neg h3, if_neg h4, if_neg h5]
    rw [hescape]
    by_cases hcontrol : c < ' '
    · exact .inl ⟨hcontrol, if_pos hcontrol⟩
    · exact .inr ⟨if_neg hcontrol, hquote, hbackslash, hcontrol⟩

theorem hexValue?_hexDigit {n : Nat} (h : n < 16) : hexValue? (hexDigit n) = some n := by
  have hall : ∀ n : Fin 16, hexValue? (hexDigit n) = some n.val := by decide
  exact hall ⟨n, h⟩

theorem hexFour?_control {c : Char} (h : c < ' ') (more : List Char) :
    hexFour? ('0' :: '0' :: hexDigit (c.toNat / 16) :: hexDigit (c.toNat % 16) :: more) = some (c.toNat, more) := by
  have hnat : c.toNat < 32 := h
  have hzero : hexValue? '0' = some 0 := rfl
  simp only [hexFour?, hzero, hexValue?_hexDigit (show c.toNat / 16 < 16 by omega),
    hexValue?_hexDigit (show c.toNat % 16 < 16 by omega)]
  congr 2
  omega

/-! ## Reading it back -/

namespace Value

theorem parseEscape_letter {letter c : Char} (hletter : letter ≠ 'u') (h : shortEscape? letter = some c)
    (more : List Char) : parseEscape (letter :: more) = some (c, more) := by
  rw [parseEscape, h]
  · rfl
  · exact hletter

theorem parseEscape_control {c : Char} (h : c < ' ') (more : List Char) :
    parseEscape ('u' :: '0' :: '0' :: hexDigit (c.toNat / 16) :: hexDigit (c.toNat % 16) :: more) =
      some (c, more) := by
  have hnat : c.toNat < 32 := h
  -- A control character is far below the halves of the characters that take two escapes.
  have hleading : isLeading c.toNat = false := by
    simp only [isLeading, Bool.and_eq_false_iff, decide_eq_false_iff_not]
    omega
  have htrailing : isTrailing c.toNat = false := by
    simp only [isTrailing, Bool.and_eq_false_iff, decide_eq_false_iff_not]
    omega
  simp only [parseEscape, hexFour?_control h, hleading, htrailing, Bool.false_eq_true, if_false, Char.ofNat_toNat]

theorem parseString_escape (fuel : Nat) (c : Char) (more : List Char) :
    parseString (fuel + 1) (escape c ++ more) =
      (parseString fuel more).map fun (text, rest) => (c :: text, rest) := by
  rcases escape_cases c with
    ⟨letter, hescape, hletter, hshort⟩ | ⟨hcontrol, hescape⟩ | ⟨hescape, hquote, hbackslash, hc⟩
  · simp only [hescape, List.cons_append, List.nil_append, parseString, parseEscape_letter hletter hshort]
  · simp only [hescape, List.cons_append, List.nil_append, parseString, parseEscape_control hcontrol]
  · rw [hescape, List.singleton_append, parseString]
    · simp only [if_neg hc]
    · exact hquote
    · exact hbackslash

/-- A quoted text is read back, and what stands behind it is left. -/
theorem parseString_quoted (cs more : List Char) {fuel : Nat} (h : cs.length < fuel) :
    parseString fuel (cs.flatMap escape ++ '"' :: more) = some (cs, more) := by
  induction cs generalizing fuel with
  | nil =>
    cases fuel with
    | zero => cases h
    | succ fuel => rfl
  | cons c cs ih =>
    cases fuel with
    | zero => cases h
    | succ fuel =>
      rw [List.flatMap_cons, List.append_assoc, parseString_escape, ih (by simpa using h)]
      rfl

end Value

theorem length_escape_pos (c : Char) : 0 < (escape c).length := by
  rcases escape_cases c with ⟨letter, hescape, -⟩ | ⟨-, hescape⟩ | ⟨hescape, -⟩ <;> simp [hescape]

theorem length_le_flatMap_escape (cs : List Char) : cs.length ≤ (cs.flatMap escape).length := by
  induction cs with
  | nil => simp
  | cons c cs ih =>
    have := length_escape_pos c
    simp only [List.flatMap_cons, List.length_append, List.length_cons]
    omega

end AgentHost.Json
