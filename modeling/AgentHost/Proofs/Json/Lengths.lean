import AgentHost.Proofs.Json.Taken
import AgentHost.Proofs.Json.Word
/-!
# What is left is shorter

Whatever the plain reader takes has at least one character, so a reader that may
go on as often as there are characters may go on often enough.
-/

namespace AgentHost.Json

theorem length_hexFour? {cs rest : List Char} {n : Nat} (h : hexFour? cs = some (n, rest)) :
    cs.length = rest.length + 4 := by
  unfold hexFour? at h
  split at h
  · split at h
    · cases h
      rfl
    · cases h
  · cases h

namespace Value

theorem length_skipSpace (cs : List Char) : (skipSpace cs).length ≤ cs.length :=
  (List.dropWhile_suffix _).length_le

theorem length_parseEscape {cs rest : List Char} {c : Char} (h : parseEscape cs = some (c, rest)) :
    rest.length < cs.length := by
  rcases parseEscape_cases h with ⟨letter, rfl, -⟩ | ⟨digits, n, rfl, hhex⟩ | ⟨digits, n, more, m, rfl, hhex, hhalf⟩
  · exact Nat.lt_succ_self _
  · have := length_hexFour? hhex
    simp only [List.length_cons]
    omega
  · have := length_hexFour? hhex
    have := length_hexFour? hhalf
    simp only [List.length_cons] at *
    omega

theorem length_parseString {fuel : Nat} {cs text rest : List Char} (h : parseString fuel cs = some (text, rest)) :
    rest.length < cs.length := by
  induction fuel generalizing cs text with
  | zero => cases h
  | succ fuel ih =>
    unfold parseString at h
    split at h
    · cases h
    · cases h
      exact Nat.lt_succ_self _
    · split at h
      case h_1 hescape =>
        obtain ⟨p, hmore, h⟩ := Option.map_eq_some_iff.1 h
        cases h
        have := ih hmore
        have := length_parseEscape hescape
        simp only [List.length_cons]
        omega
      case h_2 => cases h
    · split at h
      · cases h
      · obtain ⟨p, hmore, h⟩ := Option.map_eq_some_iff.1 h
        cases h
        have := ih hmore
        simp only [List.length_cons]
        omega

theorem length_parseDigits {cs digits rest : List Char} (h : parseDigits cs = some (digits, rest)) :
    rest.length < cs.length := by
  obtain ⟨rfl, hnil, rfl⟩ := parseDigits_cases h
  have hsplit := congrArg List.length (List.takeWhile_append_dropWhile (p := Char.isDigit) (l := cs))
  have := List.length_pos_iff.2 hnil
  rw [List.length_append] at hsplit
  omega

theorem length_parseWhole {cs whole rest : List Char} (h : parseWhole cs = some (whole, rest)) :
    rest.length < cs.length := by
  rcases parseWhole_cases h with ⟨rfl, -⟩ | ⟨-, hdigits⟩
  · exact Nat.lt_succ_self _
  · exact length_parseDigits hdigits

theorem length_parseFraction {cs fraction rest : List Char} (h : parseFraction cs = some (fraction, rest)) :
    rest.length ≤ cs.length := by
  unfold parseFraction at h
  split at h
  · obtain ⟨p, hdigits, h⟩ := Option.map_eq_some_iff.1 h
    cases h
    have := length_parseDigits hdigits
    simp only [List.length_cons]
    omega
  · cases h
    exact Nat.le_refl _

theorem length_parseExponent {cs exponent rest : List Char} (h : parseExponent cs = some (exponent, rest)) :
    rest.length ≤ cs.length := by
  unfold parseExponent at h
  split at h
  case h_1 c behind =>
    split at h
    · simp only at h
      split at h
      all_goals
        obtain ⟨p, hdigits, h⟩ := Option.map_eq_some_iff.1 h
        cases h
        have := length_parseDigits hdigits
        simp only [List.length_cons] at *
        omega
    · cases h
      exact Nat.le_refl _
  case h_2 =>
    cases h
    exact Nat.le_refl _

theorem length_parseUnsigned {cs literal rest : List Char} (h : parseUnsigned cs = some (literal, rest)) :
    rest.length < cs.length := by
  obtain ⟨_, _, _, _, _, hwhole, hfraction, hexponent, -⟩ := parseUnsigned_cases h
  have := length_parseWhole hwhole
  have := length_parseFraction hfraction
  have := length_parseExponent hexponent
  omega

theorem length_parseNumber {cs literal rest : List Char} (h : parseNumber cs = some (literal, rest)) :
    rest.length < cs.length := by
  by_cases hminus : ∃ more, cs = '-' :: more
  · obtain ⟨more, rfl⟩ := hminus
    rw [parseNumber_minus] at h
    obtain ⟨p, hunsigned, h⟩ := Option.map_eq_some_iff.1 h
    cases h
    exact Nat.lt_succ_of_lt (length_parseUnsigned hunsigned)
  · rw [parseNumber_of_ne_minus fun more hcons => hminus ⟨more, hcons⟩] at h
    exact length_parseUnsigned h

theorem head_of_parseNumber {cs literal rest : List Char} (h : parseNumber cs = some (literal, rest)) :
    ∃ c more, cs = c :: more ∧ (c = '-' ∨ c.isDigit = true) := by
  cases cs with
  | nil => cases h
  | cons c more =>
    refine ⟨c, more, rfl, ?_⟩
    by_cases hminus : c = '-'
    · exact .inl hminus
    · rw [parseNumber_of_ne_minus fun _ hcons => hminus (List.cons.inj hcons).1] at h
      obtain ⟨_, _, _, _, _, hwhole, -⟩ := parseUnsigned_cases h
      exact .inr (head_of_parseWhole hwhole)

/-! ## Items and members -/

/-- A value, the items of an array and the members of an object are not empty, and
there are no more items or members than characters. -/
theorem length_parse (fuel : Nat) :
    (∀ {cs v rest}, parseValue fuel cs = some (v, rest) → rest.length < cs.length) ∧
    (∀ {cs vs rest}, parseItems fuel cs = some (vs, rest) → rest.length + vs.length < cs.length) ∧
    (∀ {cs ms rest}, parseMembers fuel cs = some (ms, rest) → rest.length + ms.length < cs.length) := by
  induction fuel with
  | zero => exact ⟨fun h => (by cases h), fun h => (by cases h), fun h => (by cases h)⟩
  | succ fuel ih =>
    obtain ⟨ihValue, ihItems, ihMembers⟩ := ih
    -- Whitespace in front counts towards the text, so it is taken off first.
    refine ⟨fun {cs v rest} h => ?_, fun {cs vs rest} h => ?_, fun {cs ms rest} h => ?_⟩
    · have hspace := length_skipSpace cs
      have htaken := taken_of_parseValue h
      generalize skipSpace cs = start at hspace htaken
      refine Nat.lt_of_lt_of_le ?_ hspace
      cases htaken with
      | null | yes | no =>
        simp only [List.length_cons]
        omega
      | string hstring => exact Nat.lt_succ_of_lt (length_parseString hstring)
      | emptyArray hclose | emptyObject hclose =>
        rename_i inner
        have := length_skipSpace inner
        rw [hclose] at this
        simp only [List.length_cons] at *
        omega
      | array _ hitems =>
        have := ihItems hitems
        simp only [List.length_cons]
        omega
      | object _ hmembers =>
        have := ihMembers hmembers
        simp only [List.length_cons]
        omega
      | number hnumber => exact length_parseNumber hnumber
    · obtain ⟨v, behind, hvalue, hmore⟩ := parseItems_cases h
      have := ihValue hvalue
      have hspace := length_skipSpace behind
      rcases hmore with ⟨more, vs, hcomma, hitems, rfl⟩ | ⟨hclose, rfl⟩
      · have := ihItems hitems
        rw [hcomma, List.length_cons] at hspace
        simp only [List.length_cons]
        omega
      · rw [hclose, List.length_cons] at hspace
        simp only [List.length_cons, List.length_nil]
        omega
    · obtain ⟨name, v, behindQuote, behindName, behindColon, behind, hquote, hname, hcolon, hvalue, hmore⟩ :=
        parseMembers_cases h
      have := ihValue hvalue
      have := length_parseString hname
      have hspace := length_skipSpace behind
      have hstart := length_skipSpace cs
      have hbefore := length_skipSpace behindName
      rw [hquote, List.length_cons] at hstart
      rw [hcolon, List.length_cons] at hbefore
      rcases hmore with ⟨more, ms, hcomma, hmembers, rfl⟩ | ⟨hclose, rfl⟩
      · have := ihMembers hmembers
        rw [hcomma, List.length_cons] at hspace
        simp only [List.length_cons]
        omega
      · rw [hclose, List.length_cons] at hspace
        simp only [List.length_cons, List.length_nil]
        omega

end Value

end AgentHost.Json
