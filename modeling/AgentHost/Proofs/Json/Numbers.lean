import AgentHost.Json.Payload
import AgentHost.Proofs.Number.Digits
/-!
# Numbers in a text

Behind a value stands whitespace, a comma, a closing bracket or brace, or nothing.
None of these goes on with a number, so the plain reader takes the digits of an
integer and no more.
-/

namespace AgentHost.Json

open Number

/-- Nothing stands there, or what may stand behind a value. -/
def Closed : List Char → Prop
  | [] => True
  | c :: _ => isSpace c = true ∨ c = ',' ∨ c = ']' ∨ c = '}'

namespace Closed

theorem comma (rest : List Char) : Closed (',' :: rest) := .inr (.inl rfl)

theorem bracket (rest : List Char) : Closed (']' :: rest) := .inr (.inr (.inl rfl))

theorem brace (rest : List Char) : Closed ('}' :: rest) := .inr (.inr (.inr rfl))

/-- Whitespace may stand in front of what closes a value. -/
theorem of_skipSpace {cs : List Char} (h : Closed (Value.skipSpace cs)) : Closed cs := by
  cases cs with
  | nil => trivial
  | cons c cs =>
    by_cases hspace : isSpace c = true
    · exact .inl hspace
    · rw [Value.skipSpace, List.dropWhile_cons_of_neg hspace] at h
      exact h

theorem ne {c d : Char} {rest : List Char} (h : Closed (c :: rest))
    (hd : isSpace d = false ∧ d ≠ ',' ∧ d ≠ ']' ∧ d ≠ '}') : c ≠ d := by
  rintro rfl
  rcases h with hspace | hend
  · rw [hd.1] at hspace
    cases hspace
  · rcases hend with h | h | h
    · exact hd.2.1 h
    · exact hd.2.2.1 h
    · exact hd.2.2.2 h

theorem not_isDigit {c : Char} {rest : List Char} (h : Closed (c :: rest)) : c.isDigit = false := by
  simp only [Closed, isSpace, Bool.or_eq_true, beq_iff_eq] at h
  rcases h with (((rfl | rfl) | rfl) | rfl) | rfl | rfl | rfl <;> rfl

theorem not_exponent {c : Char} {rest : List Char} (h : Closed (c :: rest)) : ¬ (c = 'e' ∨ c = 'E') := by
  rintro (he | he)
  · exact h.ne (by decide) he
  · exact h.ne (by decide) he

end Closed

namespace Value

/-! ## Digits -/

theorem span_digits {ds rest : List Char} (hdigits : ∀ c ∈ ds, c.isDigit = true) (hrest : Closed rest) :
    (ds ++ rest).takeWhile Char.isDigit = ds ∧ (ds ++ rest).dropWhile Char.isDigit = rest := by
  induction ds with
  | nil =>
    cases rest with
    | nil => exact ⟨rfl, rfl⟩
    | cons c rest => simp [hrest.not_isDigit]
  | cons d ds ih =>
    have ih := ih fun c hc => hdigits c (List.mem_cons_of_mem _ hc)
    have hd := hdigits d List.mem_cons_self
    simp only [List.cons_append, List.takeWhile_cons_of_pos hd, List.dropWhile_cons_of_pos hd, ih, and_self]

theorem parseDigits_digits {ds rest : List Char} (hnil : ds ≠ []) (hdigits : ∀ c ∈ ds, c.isDigit = true)
    (hrest : Closed rest) : parseDigits (ds ++ rest) = some (ds, rest) := by
  have ⟨htake, hdrop⟩ := span_digits hdigits hrest
  simp only [parseDigits, htake, hdrop, List.isEmpty_iff, if_neg hnil]

theorem parseWhole_digits (n : Nat) {rest : List Char} (hrest : Closed rest) :
    parseWhole (Layout.digitChars (Shortest.digitsOf n) ++ rest) =
      some (Layout.digitChars (Shortest.digitsOf n), rest) := by
  have hparse := parseDigits_digits (Layout.digitChars_ne_nil n) (fun _ => Layout.isDigit_of_mem) hrest
  cases hchars : Layout.digitChars (Shortest.digitsOf n) with
  | nil => exact absurd hchars (Layout.digitChars_ne_nil n)
  | cons c cs =>
    by_cases hc : c = '0'
    · subst hc
      rw [Layout.eq_nil_of_digitChars hchars]
      rfl
    · rw [hchars] at hparse
      rw [← hparse, List.cons_append, parseWhole]
      exact fun _ h => hc (List.cons.inj h).1

theorem parseFraction_closed {rest : List Char} (hrest : Closed rest) : parseFraction rest = some ([], rest) := by
  unfold parseFraction
  split
  case h_1 => exact absurd rfl (hrest.ne (by decide))
  case h_2 => rfl

theorem parseExponent_closed {rest : List Char} (hrest : Closed rest) : parseExponent rest = some ([], rest) := by
  unfold parseExponent
  split
  case h_1 => rw [if_neg hrest.not_exponent]
  case h_2 => rfl

/-! ## Whole numbers -/

/-- Splits a number without a sign off. -/
def parseUnsigned (cs : List Char) : Option (List Char × List Char) :=
  (parseWhole cs).bind fun (whole, cs) => (parseFraction cs).bind fun (fraction, cs) =>
    (parseExponent cs).map fun (exponent, cs) => (whole ++ fraction ++ exponent, cs)

theorem parseNumber_minus (cs : List Char) :
    parseNumber ('-' :: cs) = (parseUnsigned cs).map fun (literal, rest) => ('-' :: literal, rest) := by
  unfold parseNumber parseUnsigned
  cases hwhole : parseWhole cs with
  | none => simp [hwhole]
  | some w =>
    cases hfraction : parseFraction w.2 with
    | none => simp [hwhole, hfraction]
    | some f => cases hexponent : parseExponent f.2 <;> simp [hwhole, hfraction, hexponent]

theorem parseNumber_of_ne_minus {cs : List Char} (h : ∀ more, cs ≠ '-' :: more) :
    parseNumber cs = parseUnsigned cs := by
  unfold parseNumber parseUnsigned
  split
  case h_1 sign unsigned hsplit =>
    split at hsplit
    case h_1 more => exact absurd rfl (h more)
    case h_2 =>
      obtain ⟨rfl, rfl⟩ := Prod.mk.inj hsplit
      cases parseWhole cs with
      | none => rfl
      | some w =>
        cases hfraction : parseFraction w.2 with
        | none => simp [hfraction]
        | some f => cases hexponent : parseExponent f.2 <;> simp [hfraction, hexponent]

theorem parseUnsigned_digits (n : Nat) {rest : List Char} (hrest : Closed rest) :
    parseUnsigned (Layout.digitChars (Shortest.digitsOf n) ++ rest) =
      some (Layout.digitChars (Shortest.digitsOf n), rest) := by
  simp [parseUnsigned, parseWhole_digits n hrest, parseFraction_closed hrest, parseExponent_closed hrest]

/-- The first character of an integer is a digit or a minus sign. -/
theorem integerText_eq_cons (n : Int) :
    ∃ c more, integerText n = c :: more ∧ (c = '-' ∨ c.isDigit = true) := by
  unfold integerText
  cases hchars : Layout.digitChars (Shortest.digitsOf n.natAbs) with
  | nil => exact absurd hchars (Layout.digitChars_ne_nil _)
  | cons c more =>
    split
    · exact ⟨'-', c :: more, rfl, .inl rfl⟩
    · exact ⟨c, more, rfl, .inr (Layout.isDigit_of_mem (by rw [hchars]; exact List.mem_cons_self))⟩

/-- An integer is read back as it is written. -/
theorem parseNumber_integerText (n : Int) {rest : List Char} (hrest : Closed rest) :
    parseNumber (integerText n ++ rest) = some (integerText n, rest) := by
  by_cases hn : n < 0
  · have htext : integerText n = '-' :: Layout.digitChars (Shortest.digitsOf n.natAbs) := by
      simp [integerText, hn]
    rw [htext, List.cons_append, parseNumber_minus, parseUnsigned_digits _ hrest]
    rfl
  · have htext : integerText n = Layout.digitChars (Shortest.digitsOf n.natAbs) := by
      simp [integerText, hn]
    rw [htext, parseNumber_of_ne_minus, parseUnsigned_digits _ hrest]
    -- A minus sign in front would be a digit.
    intro more hminus
    obtain ⟨c, cs, hcons, hhead⟩ := integerText_eq_cons n
    have hdigit : c.isDigit = true := Layout.isDigit_of_mem (n := n.natAbs) (by
      rw [← htext, hcons]
      exact List.mem_cons_self)
    rw [← htext, hcons] at hminus
    rw [(List.cons.inj hminus).1] at hdigit
    cases hdigit

end Value

end AgentHost.Json
