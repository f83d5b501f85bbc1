import AgentHost.Json.Token
import AgentHost.Proofs.Except
/-!
# Reading with places and without

The reader with places and the plain reader take the same strings from a text. A
place only matters for an error, so two readers are compared by what they take and
what they leave.
-/

namespace AgentHost.Json

variable {α β : Type}

/-- What was read and what is left, without the place. -/
def bare (r : Except DecodeError (α × Cursor)) : Option (α × List Char) :=
  r.toOption.map fun p => (p.1, p.2.rest)

/-- What is left, without the place. -/
def left (r : Except DecodeError Cursor) : Option (List Char) := r.toOption.map Cursor.rest

@[simp] theorem bare_ok (x : α) (c : Cursor) : bare (.ok (x, c)) = some (x, c.rest) := rfl

@[simp] theorem bare_error (e : DecodeError) : bare (.error e : Except DecodeError (α × Cursor)) = none := rfl

@[simp] theorem left_ok (c : Cursor) : left (.ok c) = some c.rest := rfl

/-- Where two steps follow each other so do the readers without places. -/
theorem bare_bind (r : Except DecodeError (α × Cursor)) {k : α × Cursor → Except DecodeError (β × Cursor)}
    {g : α × List Char → Option (β × List Char)} (h : ∀ x c, bare (k (x, c)) = g (x, c.rest)) :
    bare (r >>= k) = (bare r).bind g := by
  cases r with
  | error e => rfl
  | ok p => exact h p.1 p.2

theorem bare_bind_left (r : Except DecodeError Cursor) {k : Cursor → Except DecodeError (β × Cursor)}
    {g : List Char → Option (β × List Char)} (h : ∀ c, bare (k c) = g c.rest) :
    bare (r >>= k) = (left r).bind g := by
  cases r with
  | error e => rfl
  | ok c => exact h c

theorem bare_bind_none {r : Except DecodeError (α × Cursor)} {k : α × Cursor → Except DecodeError (β × Cursor)}
    (h : bare r = none) : bare (r >>= k) = none := by
  cases r with
  | error e => rfl
  | ok p => cases h

theorem exists_of_bare {r : Except DecodeError (α × Cursor)} {x : α} {rest : List Char}
    (h : bare r = some (x, rest)) : ∃ c : Cursor, r = .ok (x, c) ∧ c.rest = rest := by
  cases r with
  | error e => cases h
  | ok p =>
    obtain ⟨rfl, rfl⟩ := Prod.mk.inj (Option.some.inj h)
    exact ⟨p.2, rfl, rfl⟩

theorem exists_of_left {r : Except DecodeError Cursor} {rest : List Char} (h : left r = some rest) :
    ∃ c : Cursor, r = .ok c ∧ c.rest = rest := by
  cases r with
  | error e => cases h
  | ok c => exact ⟨c, rfl, Option.some.inj h⟩

namespace Cursor

theorem rest_next {c : Cursor} {ch : Char} {rest : List Char} (h : c.rest = ch :: rest) : c.next.rest = rest := by
  unfold next
  rw [h]

theorem rest_skipSpaceFrom (cs : List Char) (p : Place) : (skipSpaceFrom cs p).rest = Value.skipSpace cs := by
  induction cs generalizing p with
  | nil => rfl
  | cons ch cs ih =>
    unfold skipSpaceFrom
    split
    case isTrue hspace => rw [ih, Value.skipSpace, Value.skipSpace, List.dropWhile_cons_of_pos hspace]
    case isFalse hspace => rw [Value.skipSpace, List.dropWhile_cons_of_neg hspace]

@[simp] theorem rest_skipSpace (c : Cursor) : c.skipSpace.rest = Value.skipSpace c.rest :=
  rest_skipSpaceFrom c.rest c.place

@[simp] theorem bare_fail (c : Cursor) (cause : Cause) :
    bare (c.fail cause : Except DecodeError (α × Cursor)) = none := rfl

end Cursor

namespace Token

/-! ## Words -/

/-- A word is read where it stands. -/
theorem left_readWord {c : Cursor} {word rest : List Char} (h : c.rest = word ++ rest) :
    left (readWord c word) = some rest := by
  induction word generalizing c with
  | nil => rw [readWord, left_ok, h, List.nil_append]
  | cons w word ih =>
    unfold readWord
    simp only [h, List.cons_append, if_true]
    exact ih (Cursor.rest_next h)

/-! ## Escapes -/

theorem bare_readHex (c : Cursor) : bare (readHex c) = hexFour? c.rest := by
  unfold readHex
  split
  case h_1 n rest h => rw [bare_ok, h]
  case h_2 h => rw [h]; rfl

theorem expectInEscape_cons {c : Cursor} {ch : Char} {rest : List Char} (h : c.rest = ch :: rest) :
    expectInEscape c ch = .ok c.next := by
  simp only [expectInEscape, h, if_true]

theorem expectInEscape_ne {c : Cursor} {ch : Char} (h : ∀ rest, c.rest ≠ ch :: rest) :
    ∃ e, expectInEscape c ch = .error e := by
  unfold expectInEscape
  split
  case h_1 => exact ⟨_, rfl⟩
  case h_2 d rest hrest =>
    have hne : d ≠ ch := by
      rintro rfl
      exact h rest hrest
    rw [if_neg hne]
    exact ⟨_, rfl⟩

theorem not_isTrailing_of_isLeading {n : Nat} (h : isLeading n = true) : isTrailing n = false := by
  simp only [isLeading, isTrailing, Bool.and_eq_true, Bool.and_eq_false_iff, decide_eq_true_eq,
    decide_eq_false_iff_not] at h ⊢
  omega

/-- The second half of a character, behind the first. -/
theorem bare_readTrailing (n : Nat) (c : Cursor) :
    bare (do
      let c ← expectInEscape c '\\'
      let c ← expectInEscape c 'u'
      let (m, c) ← readHex c
      if isTrailing m then .ok (joinHalves n m, c) else c.problem .loneSurrogate) =
    match c.rest with
      | '\\' :: 'u' :: more =>
        match hexFour? more with
        | some (m, rest) => if isTrailing m then some (joinHalves n m, rest) else none
        | none => none
      | _ => none := by
  by_cases hfirst : ∃ more, c.rest = '\\' :: more
  · obtain ⟨more, hfirst⟩ := hfirst
    have hnext := Cursor.rest_next hfirst
    by_cases hsecond : ∃ digits, more = 'u' :: digits
    · obtain ⟨digits, rfl⟩ := hsecond
      have hhex := bare_readHex c.next.next
      rw [Cursor.rest_next hnext] at hhex
      simp only [expectInEscape_cons hfirst, expectInEscape_cons hnext, ok_bind, hfirst, ← hhex]
      cases readHex c.next.next with
      | error e => rfl
      | ok p =>
        obtain ⟨m, c'⟩ := p
        simp only [ok_bind, bare_ok]
        split
        · exact bare_ok _ _
        · rfl
    · obtain ⟨e, herror⟩ := expectInEscape_ne (c := c.next) fun rest h => hsecond ⟨rest, hnext.symm.trans h⟩
      simp only [expectInEscape_cons hfirst, herror, ok_bind, error_bind, bare_error, hfirst]
      split
      case h_1 digits hcons => exact absurd ⟨digits, (List.cons.inj hcons).2⟩ hsecond
      case h_2 => rfl
  · obtain ⟨e, herror⟩ := expectInEscape_ne fun rest h => hfirst ⟨rest, h⟩
    simp only [herror, error_bind, bare_error]
    split
    case h_1 digits hcons => exact absurd ⟨_, hcons⟩ hfirst
    case h_2 => rfl

theorem bare_readCode (c : Cursor) : bare (readCode c) = Value.parseEscape ('u' :: c.rest) := by
  have hhex := bare_readHex c
  unfold readCode Value.parseEscape
  cases hread : readHex c with
  | error e =>
    rw [hread, bare_error] at hhex
    simp only [← hhex]
    rfl
  | ok p =>
    obtain ⟨n, c'⟩ := p
    rw [hread, bare_ok] at hhex
    simp only [← hhex, ok_bind]
    -- Only the first half of a character has a second one behind it.
    by_cases hleading : isLeading n = true
    · simp only [hleading, not_isTrailing_of_isLeading hleading, if_true, Bool.false_eq_true, if_false]
      exact bare_readTrailing n c'
    · simp only [hleading]
      split <;> rfl

theorem bare_readEscape (c : Cursor) : bare (readEscape c) = Value.parseEscape c.rest := by
  unfold readEscape
  split
  case h_1 h =>
    rw [h]
    rfl
  case h_2 rest h => rw [bare_readCode, Cursor.rest_next h, h]
  case h_3 ch rest hcode h =>
    rw [h, Value.parseEscape]
    · cases shortEscape? ch with
      | none => rfl
      | some e => rw [bare_ok, Cursor.rest_next h]; rfl
    · exact hcode

/-! ## Strings -/

/-- Both readers take the same string. -/
theorem bare_readString (fuel : Nat) (c : Cursor) : bare (readString fuel c) = Value.parseString fuel c.rest := by
  induction fuel generalizing c with
  | zero => rfl
  | succ fuel ih =>
    unfold readString
    split
    case h_1 h =>
      rw [h]
      rfl
    case h_2 rest h =>
      rw [h, bare_ok, Cursor.rest_next h]
      rfl
    case h_3 rest h =>
      rw [h]
      have hescape := bare_readEscape c.next
      rw [Cursor.rest_next h] at hescape
      simp only [Value.parseString, ← hescape]
      cases readEscape c.next with
      | error e => rfl
      | ok p =>
        obtain ⟨ch, c'⟩ := p
        simp only [ok_bind, bare_ok, ← ih]
        cases readString fuel c' <;> rfl
    case h_4 ch rest hquote hbackslash h =>
      rw [h, Value.parseString]
      · have hmore := ih c.next
        rw [Cursor.rest_next h] at hmore
        rw [← hmore]
        split
        · rfl
        · cases readString fuel c.next <;> rfl
      · exact hquote
      · exact hbackslash

end Token

end AgentHost.Json
