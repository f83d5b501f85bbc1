import AgentHost.Proofs.Json.Lengths
/-!
# Passing over values

Whatever value the plain reader takes is passed over, as far as it goes. To pass
over a string is less strict than to read it: the halves of a character count as
two there, which is why it may take more steps.
-/

namespace AgentHost.Json

namespace Token

/-! ## Strings -/

theorem left_skipEscape_letter {c : Cursor} {letter : Char} {rest : List Char} (h : c.rest = letter :: rest)
    (hletter : letter ≠ 'u') (hshort : (shortEscape? letter).isSome) : left (skipEscape c) = some rest := by
  unfold skipEscape
  split
  case h_1 hnil => rw [hnil] at h; cases h
  case h_2 hcode =>
    rw [hcode] at h
    exact absurd (List.cons.inj h).1.symm hletter
  case h_3 ch more _ hcons =>
    obtain ⟨rfl, rfl⟩ := List.cons.inj (h.symm.trans hcons)
    rw [if_pos hshort, left_ok, Cursor.rest_next h]

theorem left_skipEscape_code {c : Cursor} {digits rest : List Char} {n : Nat} (h : c.rest = 'u' :: digits)
    (hhex : hexFour? digits = some (n, rest)) : left (skipEscape c) = some rest := by
  have hread := bare_readHex c.next
  rw [Cursor.rest_next h, hhex] at hread
  obtain ⟨c', hok, rfl⟩ := exists_of_bare hread
  simp only [skipEscape, h, hok]
  rfl

theorem skipString_quote (fuel : Nat) {c : Cursor} {rest : List Char} (h : c.rest = '"' :: rest) :
    left (skipString (fuel + 1) c) = some rest := by
  simp only [skipString, h, left_ok, Cursor.rest_next h]

theorem skipString_escape (fuel : Nat) {c : Cursor} {rest behind : List Char} (h : c.rest = '\\' :: rest)
    (hescape : ∀ c' : Cursor, c'.rest = rest → left (skipEscape c') = some behind) :
    ∃ c' : Cursor, skipString (fuel + 1) c = skipString fuel c' ∧ c'.rest = behind := by
  have hnext := hescape c.next (Cursor.rest_next h)
  cases hskip : skipEscape c.next with
  | error e =>
    rw [hskip] at hnext
    cases hnext
  | ok c' =>
    rw [hskip] at hnext
    refine ⟨c', ?_, Option.some.inj hnext⟩
    simp only [skipString, h, hskip, ok_bind]

theorem skipString_plain (fuel : Nat) {c : Cursor} {ch : Char} {rest : List Char} (h : c.rest = ch :: rest)
    (hquote : ch ≠ '"') (hbackslash : ch ≠ '\\') (hcontrol : ¬ ch < ' ') :
    skipString (fuel + 1) c = skipString fuel c.next := by
  rw [skipString]
  split
  case h_1 hnil => rw [hnil] at h; cases h
  case h_2 hcons => exact absurd (List.cons.inj (h.symm.trans hcons)).1 hquote
  case h_3 hcons => exact absurd (List.cons.inj (h.symm.trans hcons)).1 hbackslash
  case h_4 hcons =>
    obtain ⟨rfl, -⟩ := List.cons.inj (h.symm.trans hcons)
    rw [if_neg hcontrol]

/-- What is read as a string is passed over as one. -/
theorem left_skipString {fuel : Nat} {cs text rest : List Char} (h : Value.parseString fuel cs = some (text, rest))
    {steps : Nat} {c : Cursor} (hstart : c.rest = cs) (hsteps : cs.length < steps) :
    left (skipString steps c) = some rest := by
  induction fuel generalizing cs text steps c with
  | zero => cases h
  | succ fuel ih =>
    unfold Value.parseString at h
    cases steps with
    | zero => cases hsteps
    | succ steps =>
    split at h
    case h_1 => cases h
    case h_2 =>
      cases h
      exact skipString_quote steps hstart
    case h_3 behindSlash =>
      split at h
      case h_2 => cases h
      case h_1 ch behind hescape =>
        obtain ⟨p, hmore, h⟩ := Option.map_eq_some_iff.1 h
        cases h
        have hshorter := Value.length_parseEscape hescape
        rw [List.length_cons] at hsteps
        rcases Value.parseEscape_cases hescape with ⟨letter, rfl, hletter, hshort⟩ | ⟨digits, n, rfl, hhex⟩ |
            ⟨digits, n, more, m, rfl, hhex, hhalf⟩
        · obtain ⟨c', hskip, hrest⟩ := skipString_escape steps hstart fun _ hc =>
            left_skipEscape_letter hc hletter hshort
          rw [hskip]
          exact ih hmore hrest (by omega)
        · obtain ⟨c', hskip, hrest⟩ := skipString_escape steps hstart fun _ hc =>
            left_skipEscape_code hc hhex
          rw [hskip]
          exact ih hmore hrest (by omega)
        · -- The second half is passed over as an escape of its own.
          have hfirst := length_hexFour? hhex
          have hsecond := length_hexFour? hhalf
          simp only [List.length_cons] at hfirst hsteps
          obtain ⟨c', hskip, hrest⟩ := skipString_escape steps hstart fun _ hc =>
            left_skipEscape_code hc hhex
          cases steps with
          | zero => omega
          | succ steps =>
            obtain ⟨c'', hskip', hrest'⟩ := skipString_escape steps hrest fun _ hc =>
              left_skipEscape_code hc hhalf
            rw [hskip, hskip']
            exact ih hmore hrest' (by omega)
    case h_4 ch behind hquote hbackslash =>
      split at h
      case isTrue => cases h
      case isFalse hcontrol =>
        obtain ⟨p, hmore, h⟩ := Option.map_eq_some_iff.1 h
        cases h
        rw [skipString_plain steps hstart hquote hbackslash hcontrol]
        rw [List.length_cons] at hsteps
        exact ih hmore (Cursor.rest_next hstart) (by omega)

/-! ## Numbers -/

theorem left_skipDigits (missing : Cursor → Except DecodeError Cursor) {c : Cursor} {digits rest : List Char}
    (h : Value.parseDigits c.rest = some (digits, rest)) : left (skipDigits c missing) = some rest := by
  obtain ⟨d, more, hcons, hdigit⟩ := Value.head_of_parseDigits h
  obtain ⟨-, -, rfl⟩ := Value.parseDigits_cases h
  rw [skipDigits, if_pos (atDigit_of_isDigit hcons hdigit), left_ok, (takeDigits_span c.rest c.place).2]

theorem left_skipExponent {c : Cursor} {exponent rest : List Char}
    (h : Value.parseExponent c.rest = some (exponent, rest)) : left (skipExponent c) = some rest := by
  unfold Value.parseExponent at h
  split at h
  case h_2 hnil =>
    cases h
    simp [skipExponent, atExponent, hnil]
  case h_1 ch behind hcons =>
    split at h
    case isFalse hletter =>
      cases h
      have hat : atExponent c = false := by simpa [atExponent, hcons, not_or] using hletter
      rw [skipExponent, hat, if_neg Bool.false_ne_true, left_ok, hcons]
    case isTrue hletter =>
      have hat : atExponent c = true := by simpa [atExponent, hcons] using hletter
      have hnext := Cursor.rest_next hcons
      rw [skipExponent, if_pos hat]
      simp only at h ⊢
      -- The sign of the exponent is a plus, a minus or not there.
      split at h
      case h_1 more =>
        obtain ⟨p, hdigits, h⟩ := Option.map_eq_some_iff.1 h
        cases h
        simp only [hnext]
        exact left_skipDigits _ (by rw [Cursor.rest_next hnext]; exact hdigits)
      case h_2 more =>
        obtain ⟨p, hdigits, h⟩ := Option.map_eq_some_iff.1 h
        cases h
        simp only [hnext]
        exact left_skipDigits _ (by rw [Cursor.rest_next hnext]; exact hdigits)
      case h_3 hplus hminus =>
        obtain ⟨p, hdigits, h⟩ := Option.map_eq_some_iff.1 h
        cases h
        split
        case h_1 more hsign => exact absurd (hnext.symm.trans hsign) (hplus more)
        case h_2 more hsign => exact absurd (hnext.symm.trans hsign) (hminus more)
        case h_3 => exact left_skipDigits _ (by rw [hnext]; exact hdigits)

/-- What stands behind the whole part of a number is passed over. -/
theorem left_skipFraction {c : Cursor} {fraction behind exponent rest : List Char}
    (hfraction : Value.parseFraction c.rest = some (fraction, behind))
    (hexponent : Value.parseExponent behind = some (exponent, rest)) :
    left (if c.rest.head? = some '.' then do
        let c ← skipDigits c.next (·.peekProblem .invalidNumber)
        skipExponent c
      else skipExponent c) = some rest := by
  unfold Value.parseFraction at hfraction
  split at hfraction
  case h_1 digits hpoint =>
    obtain ⟨p, hdigits, h⟩ := Option.map_eq_some_iff.1 hfraction
    cases h
    rw [if_pos (by rw [hpoint]; rfl)]
    rw [← Cursor.rest_next hpoint] at hdigits
    obtain ⟨c', hskip, hbehind⟩ := exists_of_left (left_skipDigits (·.peekProblem .invalidNumber) hdigits)
    rw [hskip, ok_bind]
    rw [← hbehind] at hexponent
    exact left_skipExponent hexponent
  case h_2 hpoint =>
    cases hfraction
    rw [if_neg]
    · exact left_skipExponent hexponent
    · intro hhead
      obtain ⟨more, hcons⟩ := List.head?_eq_some_iff.1 hhead
      exact hpoint more hcons

theorem left_skipNumber {c : Cursor} {literal rest : List Char}
    (h : Value.parseUnsigned c.rest = some (literal, rest)) (hrest : Closed rest) :
    left (skipNumber c) = some rest := by
  obtain ⟨whole, fraction, exponent, behindWhole, behindFraction, hwhole, hfraction, hexponent, -⟩ :=
    Value.parseUnsigned_cases h
  have hstop := Value.not_isDigit_behindWhole hfraction hexponent hrest
  unfold skipNumber
  rcases Value.parseWhole_cases hwhole with ⟨hzero, -⟩ | ⟨hzero, hdigits⟩
  · have hnext := Cursor.rest_next hzero
    have hdigit : atDigit c.next = false := not_atDigit (by rw [hnext]; exact hstop)
    simp only [hzero, hdigit, Bool.false_eq_true, if_false, ok_bind]
    rw [← hnext] at hfraction
    exact left_skipFraction hfraction hexponent
  · obtain ⟨c', hskip, rfl⟩ := exists_of_left (left_skipDigits (·.peekProblem .invalidNumber) hdigits)
    split
    case h_1 more hcons => exact absurd hcons (hzero more)
    case h_2 =>
      rw [hskip, ok_bind]
      exact left_skipFraction hfraction hexponent

/-! ## Values -/

/-- Values are passed over in as many steps as they have characters, and so are the
items and members below. -/
def PassesValues (fuel : Nat) : Prop :=
  ∀ ⦃v rest steps⦄ ⦃c : Cursor⦄, Value.parseValue fuel c.rest = some (v, rest) → Closed rest →
    c.rest.length ≤ steps + rest.length → left (skipValue steps c) = some rest

/-- Items are passed over up to the end of their array. -/
def PassesItems (fuel : Nat) : Prop :=
  ∀ ⦃vs rest steps⦄ ⦃c : Cursor⦄, Value.parseItems fuel c.rest = some (vs, rest) →
    c.rest.length ≤ steps + rest.length → left (skipItems steps c) = some rest

/-- Members are passed over up to the end of their object. -/
def PassesMembers (fuel : Nat) : Prop :=
  ∀ ⦃ms rest steps⦄ ⦃c : Cursor⦄, Value.parseMembers fuel c.rest = some (ms, rest) →
    c.rest.length ≤ steps + rest.length → left (skipMembers steps c) = some rest

theorem left_skipValue_number (steps : Nat) {c : Cursor} {literal rest : List Char}
    (h : Value.parseNumber (Value.skipSpace c.rest) = some (literal, rest)) (hrest : Closed rest) :
    left (skipValue (steps + 1) c) = some rest := by
  rw [← Cursor.rest_skipSpace] at h
  obtain ⟨first, more, hstart, hhead⟩ := Value.head_of_parseNumber h
  unfold skipValue
  simp only
  rcases hhead with rfl | hdigit
  · rw [hstart, Value.parseNumber_minus, ← Cursor.rest_next hstart] at h
    obtain ⟨p, hunsigned, hp⟩ := Option.map_eq_some_iff.1 h
    cases hp
    simp only [hstart]
    exact left_skipNumber hunsigned hrest
  · rw [Value.parseNumber_of_ne_minus] at h
    · split
      case h_9 ch _ _ _ _ _ _ _ _ _ hcons =>
        rw [← (List.cons.inj (hstart.symm.trans hcons)).1, if_pos hdigit]
        exact left_skipNumber h hrest
      case h_1 hnil => rw [hstart] at hnil; cases hnil
      -- No other value starts with a digit.
      all_goals
        rename_i hcons
        obtain ⟨rfl, -⟩ := List.cons.inj (hstart.symm.trans hcons)
        cases hdigit
    · intro tail hcons
      obtain ⟨rfl, -⟩ := List.cons.inj (hstart.symm.trans hcons)
      cases hdigit

theorem passesValues_succ {fuel : Nat} (hitems : PassesItems fuel) (hmembers : PassesMembers fuel) :
    PassesValues (fuel + 1) := by
  intro v rest steps c h hrest hsteps
  have hlength := (Value.length_parse _).1 h
  cases steps with
  | zero => omega
  | succ steps =>
    have hspace := Value.length_skipSpace c.rest
    have htaken := Value.taken_of_parseValue h
    generalize hstart : Value.skipSpace c.rest = start at hspace htaken
    rw [← Cursor.rest_skipSpace] at hstart
    cases htaken with
    | null | yes | no =>
      simp only [skipValue, hstart]
      exact left_readWord (Cursor.rest_next hstart)
    | string hstring =>
      simp only [skipValue, hstart]
      exact left_skipString hstring (Cursor.rest_next hstart) (Nat.lt_succ_self _)
    | emptyArray hclose | emptyObject hclose =>
      have hnext := Cursor.rest_skipSpace c.skipSpace.next
      rw [Cursor.rest_next hstart, hclose] at hnext
      simp only [skipValue, hstart, hnext, left_ok, Cursor.rest_next hnext]
    | @array inner _ vs hopen htaken =>
      have hinner := Cursor.rest_skipSpace c.skipSpace.next
      rw [Cursor.rest_next hstart] at hinner
      have hshorter := Value.length_skipSpace inner
      rw [← Value.parseItems_skipSpace, ← hinner] at htaken
      rw [List.length_cons] at hspace
      simp only [skipValue, hstart]
      split
      case h_1 hnil =>
        have := (Value.length_parse _).2.1 htaken
        rw [hnil] at this
        cases this
      case h_2 more hclose => exact absurd (hinner.symm.trans hclose) (hopen more)
      case h_3 => exact hitems htaken (by rw [hinner]; omega)
    | @object inner _ ms hopen htaken =>
      have hinner := Cursor.rest_skipSpace c.skipSpace.next
      rw [Cursor.rest_next hstart] at hinner
      have hshorter := Value.length_skipSpace inner
      rw [← Value.parseMembers_skipSpace, ← hinner] at htaken
      rw [List.length_cons] at hspace
      simp only [skipValue, hstart]
      split
      case h_1 hnil =>
        have := (Value.length_parse _).2.2 htaken
        rw [hnil] at this
        cases this
      case h_2 more hclose => exact absurd (hinner.symm.trans hclose) (hopen more)
      case h_3 => exact hmembers htaken (by rw [hinner]; omega)
    | number hnumber =>
      rw [← hstart, Cursor.rest_skipSpace] at hnumber
      exact left_skipValue_number steps hnumber hrest

/-- What closes a value is found behind it. -/
theorem PassesValues.before {fuel : Nat} (hvalues : PassesValues fuel) {c : Cursor} {v : Value}
    {behind more : List Char} {d : Char} {steps : Nat} (h : Value.parseValue fuel c.rest = some (v, behind))
    (hbehind : Value.skipSpace behind = d :: more) (hclosed : Closed (d :: more))
    (hsteps : c.rest.length ≤ steps + behind.length) :
    ∃ c' : Cursor, skipValue steps c = .ok c' ∧ c'.skipSpace.rest = d :: more ∧ c'.skipSpace.next.rest = more := by
  obtain ⟨c', hskip, rfl⟩ := exists_of_left (hvalues h (.of_skipSpace (hbehind ▸ hclosed)) hsteps)
  rw [← Cursor.rest_skipSpace] at hbehind
  exact ⟨c', hskip, hbehind, Cursor.rest_next hbehind⟩

theorem passesItems_succ {fuel : Nat} (hvalues : PassesValues fuel) (hitems : PassesItems fuel) :
    PassesItems (fuel + 1) := by
  intro vs rest steps c h hsteps
  have hlength := (Value.length_parse _).2.1 h
  obtain ⟨v, behind, hvalue, hmore⟩ := Value.parseItems_cases h
  have hvaluelength := (Value.length_parse _).1 hvalue
  have hbehind := Value.length_skipSpace behind
  cases steps with
  | zero => omega
  | succ steps =>
    rcases hmore with ⟨more, _, hcomma, htaken, -⟩ | ⟨hclose, -⟩
    · have hmorelength := (Value.length_parse _).2.1 htaken
      rw [hcomma, List.length_cons] at hbehind
      obtain ⟨c', hskip, hafter, hnext⟩ := hvalues.before hvalue hcomma (.comma more)
        (show c.rest.length ≤ steps + behind.length by omega)
      rw [← hnext] at htaken
      simp only [skipItems, hskip, ok_bind, hafter]
      exact hitems htaken (by rw [hnext]; omega)
    · rw [hclose, List.length_cons] at hbehind
      obtain ⟨c', hskip, hafter, hnext⟩ := hvalues.before hvalue hclose (.bracket rest)
        (show c.rest.length ≤ steps + behind.length by omega)
      simp only [skipItems, hskip, ok_bind, hafter, left_ok, hnext]

theorem passesMembers_succ {fuel : Nat} (hvalues : PassesValues fuel) (hmembers : PassesMembers fuel) :
    PassesMembers (fuel + 1) := by
  intro ms rest steps c h hsteps
  have hlength := (Value.length_parse _).2.2 h
  obtain ⟨name, v, behindQuote, behindName, behindColon, behind, hquote, hname, hcolon, hvalue, hmore⟩ :=
    Value.parseMembers_cases h
  have hstart := Value.length_skipSpace c.rest
  have hbefore := Value.length_skipSpace behindName
  have hbehind := Value.length_skipSpace behind
  have hnamelength := Value.length_parseString hname
  have hvaluelength := (Value.length_parse _).1 hvalue
  rw [hquote, List.length_cons] at hstart
  rw [hcolon, List.length_cons] at hbefore
  rw [← Cursor.rest_skipSpace] at hquote
  cases steps with
  | zero => omega
  | succ steps =>
    -- The name, the colon and the value are passed over in turn.
    obtain ⟨c₁, hskipname, rfl⟩ := exists_of_left
      (left_skipString hname (Cursor.rest_next hquote) (Nat.lt_succ_self behindQuote.length))
    rw [← Cursor.rest_skipSpace] at hcolon
    have hnext := Cursor.rest_next hcolon
    rw [← hnext] at hvalue
    rcases hmore with ⟨more, _, hcomma, htaken, -⟩ | ⟨hclose, -⟩
    · have hmorelength := (Value.length_parse _).2.2 htaken
      rw [hcomma, List.length_cons] at hbehind
      obtain ⟨c₂, hskip, hafter, hnextname⟩ := hvalues.before hvalue hcomma (.comma more)
        (show c₁.skipSpace.next.rest.length ≤ steps + behind.length by rw [hnext]; omega)
      rw [← hnextname] at htaken
      simp only [skipMembers, hquote, hskipname, ok_bind, hcolon, hskip, hafter]
      exact hmembers htaken (by rw [hnextname]; omega)
    · rw [hclose, List.length_cons] at hbehind
      obtain ⟨c₂, hskip, hafter, hnextname⟩ := hvalues.before hvalue hclose (.brace rest)
        (show c₁.skipSpace.next.rest.length ≤ steps + behind.length by rw [hnext]; omega)
      simp only [skipMembers, hquote, hskipname, ok_bind, hcolon, hskip, hafter, left_ok, hnextname]

theorem passes (fuel : Nat) : PassesValues fuel ∧ PassesItems fuel ∧ PassesMembers fuel := by
  induction fuel with
  | zero =>
    refine ⟨?_, ?_, ?_⟩
    · intro v rest steps c h
      cases h
    · intro vs rest steps c h
      cases h
    · intro ms rest steps c h
      cases h
  | succ fuel ih =>
    obtain ⟨hvalues, hitems, hmembers⟩ := ih
    exact ⟨passesValues_succ hitems hmembers, passesItems_succ hvalues hitems, passesMembers_succ hvalues hmembers⟩

/-- A value is passed over where it stands. -/
theorem left_skipValue {fuel : Nat} {c : Cursor} {v : Value} {rest : List Char}
    (h : Value.parseValue fuel c.rest = some (v, rest)) (hrest : Closed rest) {steps : Nat}
    (hsteps : c.rest.length ≤ steps) : left (skipValue steps c) = some rest :=
  (passes fuel).1 h hrest (Nat.le_add_right_of_le hsteps)

end Token

end AgentHost.Json
