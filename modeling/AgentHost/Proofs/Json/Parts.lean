import AgentHost.Proofs.Json.Numbers
/-!
# The parts of a number

A number without a sign is digits, then maybe a fraction, then maybe an exponent.
What was split off tells which of them were there.
-/

namespace AgentHost.Json

namespace Value

/-! ## Digits -/

theorem parseDigits_cases {cs digits rest : List Char} (h : parseDigits cs = some (digits, rest)) :
    digits = cs.takeWhile Char.isDigit ∧ digits ≠ [] ∧ rest = cs.dropWhile Char.isDigit := by
  simp only [parseDigits] at h
  split at h
  case isTrue => cases h
  case isFalse hsome =>
    cases h
    exact ⟨rfl, by simpa using hsome, rfl⟩

theorem head_of_parseDigits {cs digits rest : List Char} (h : parseDigits cs = some (digits, rest)) :
    ∃ d more, cs = d :: more ∧ d.isDigit = true := by
  obtain ⟨rfl, hnil, -⟩ := parseDigits_cases h
  cases cs with
  | nil => exact absurd rfl hnil
  | cons d more =>
    by_cases hdigit : d.isDigit = true
    · exact ⟨d, more, rfl, hdigit⟩
    · exact absurd (List.takeWhile_cons_of_neg hdigit) hnil

theorem parseWhole_cases {cs whole rest : List Char} (h : parseWhole cs = some (whole, rest)) :
    (cs = '0' :: rest ∧ whole = ['0']) ∨
      ((∀ more, cs ≠ '0' :: more) ∧ parseDigits cs = some (whole, rest)) := by
  unfold parseWhole at h
  split at h
  case h_1 =>
    cases h
    exact .inl ⟨rfl, rfl⟩
  case h_2 hzero => exact .inr ⟨fun more hcons => hzero more hcons, h⟩

theorem isDigit_of_parseWhole {cs whole rest : List Char} (h : parseWhole cs = some (whole, rest)) :
    whole ≠ [] ∧ ∀ c ∈ whole, c.isDigit = true := by
  rcases parseWhole_cases h with ⟨-, rfl⟩ | ⟨-, hdigits⟩
  · exact ⟨List.cons_ne_nil _ _, fun c hc => by rw [List.mem_singleton.1 hc]; rfl⟩
  · obtain ⟨rfl, hnil, -⟩ := parseDigits_cases hdigits
    exact ⟨hnil, fun c hc => List.all_eq_true.1 List.all_takeWhile c hc⟩

theorem head_of_parseWhole {c : Char} {cs whole rest : List Char} (h : parseWhole (c :: cs) = some (whole, rest)) :
    c.isDigit = true := by
  rcases parseWhole_cases h with ⟨hzero, -⟩ | ⟨-, hdigits⟩
  · rw [(List.cons.inj hzero).1]
    rfl
  · obtain ⟨d, more, hcons, hdigit⟩ := head_of_parseDigits hdigits
    rw [(List.cons.inj hcons).1]
    exact hdigit

/-! ## Fraction and exponent -/

theorem parseFraction_cases {cs fraction rest : List Char} (h : parseFraction cs = some (fraction, rest)) :
    (fraction = [] ∧ rest = cs ∧ cs.head? ≠ some '.') ∨ (cs.head? = some '.' ∧ '.' ∈ fraction) := by
  unfold parseFraction at h
  split at h
  case h_1 =>
    obtain ⟨p, -, h⟩ := Option.map_eq_some_iff.1 h
    cases h
    exact .inr ⟨rfl, List.mem_cons_self⟩
  case h_2 hpoint =>
    cases h
    refine .inl ⟨rfl, rfl, fun hhead => ?_⟩
    obtain ⟨more, rfl⟩ := List.head?_eq_some_iff.1 hhead
    exact hpoint more rfl

theorem parseExponent_cases {cs exponent rest : List Char} (h : parseExponent cs = some (exponent, rest)) :
    (exponent = [] ∧ rest = cs ∧ ∀ c more, cs = c :: more → ¬ (c = 'e' ∨ c = 'E')) ∨
      ∃ c more, cs = c :: more ∧ (c = 'e' ∨ c = 'E') ∧ c ∈ exponent := by
  unfold parseExponent at h
  split at h
  case h_1 c more =>
    split at h
    case isTrue hletter =>
      obtain ⟨p, -, h⟩ := Option.map_eq_some_iff.1 h
      cases h
      exact .inr ⟨c, more, rfl, hletter, List.mem_cons_self⟩
    case isFalse hletter =>
      cases h
      refine .inl ⟨rfl, rfl, fun d more hcons => ?_⟩
      obtain ⟨rfl, -⟩ := List.cons.inj hcons
      exact hletter
  case h_2 =>
    cases h
    exact .inl ⟨rfl, rfl, fun c more hcons => by cases hcons⟩

/-- Digits end where the rest of a number starts. -/
theorem not_isDigit_behindWhole {cs fraction behindFraction exponent rest : List Char}
    (hfraction : parseFraction cs = some (fraction, behindFraction))
    (hexponent : parseExponent behindFraction = some (exponent, rest)) (hrest : Closed rest) :
    ∀ d more, cs = d :: more → d.isDigit = false := by
  intro d more hcons
  rcases parseFraction_cases hfraction with ⟨-, rfl, -⟩ | ⟨hpoint, -⟩
  · rcases parseExponent_cases hexponent with ⟨-, rfl, -⟩ | ⟨e, behind, hbehind, hletter, -⟩
    · rw [hcons] at hrest
      exact hrest.not_isDigit
    · rw [hcons] at hbehind
      rw [(List.cons.inj hbehind).1]
      rcases hletter with rfl | rfl <;> rfl
  · rw [hcons] at hpoint
    rw [Option.some.inj hpoint]
    rfl

theorem parseUnsigned_cases {cs literal rest : List Char} (h : parseUnsigned cs = some (literal, rest)) :
    ∃ whole fraction exponent behindWhole behindFraction, parseWhole cs = some (whole, behindWhole) ∧
      parseFraction behindWhole = some (fraction, behindFraction) ∧
      parseExponent behindFraction = some (exponent, rest) ∧ literal = whole ++ fraction ++ exponent := by
  obtain ⟨⟨whole, behindWhole⟩, hwhole, h⟩ := Option.bind_eq_some_iff.1 h
  obtain ⟨⟨fraction, behindFraction⟩, hfraction, h⟩ := Option.bind_eq_some_iff.1 h
  obtain ⟨⟨exponent, behind⟩, hexponent, h⟩ := Option.map_eq_some_iff.1 h
  cases h
  exact ⟨whole, fraction, exponent, behindWhole, behindFraction, hwhole, hfraction, hexponent, rfl⟩

end Value

end AgentHost.Json
