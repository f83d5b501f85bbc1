import AgentHost.Json.Decode
import AgentHost.Proofs.Json.Parts
import AgentHost.Proofs.Json.Strings
/-!
# Words of 16 bits

A word is read from a number that is written with digits alone, and from no other:
a sign, a fraction or an exponent makes the number one of another kind, and so do
digits that are too many.
-/

namespace AgentHost.Json

open Number

/-- The word that a number denotes as it is written. -/
def wordOf? (literal : List Char) : Option UInt16 :=
  (Numeral.ofDigits? 10 literal).bind fun n => if n < UInt16.size then some (UInt16.ofNat n) else none

namespace Token

/-- What was read is not an integer without a sign. -/
def NotUnsigned (r : Except DecodeError (Numeral × Cursor)) : Prop := ∀ n c, r ≠ .ok (.unsigned n, c)

theorem notUnsigned_error (e : DecodeError) : NotUnsigned (.error e) := by
  intro n c h
  cases h

theorem notUnsigned_real (x : Binary) (c : Cursor) : NotUnsigned (.ok (.real x, c)) := by
  intro n c h
  cases h

theorem finish_notUnsigned (negative : Bool) (significand : Nat) (e : Int) (c : Cursor) :
    NotUnsigned (finish negative significand e c) := by
  unfold finish
  split
  · exact notUnsigned_real _ _
  · exact notUnsigned_error _

theorem readExponent_notUnsigned (negative : Bool) (significand : Nat) (e : Int) (c : Cursor) :
    NotUnsigned (readExponent negative significand e c) := by
  unfold readExponent
  simp only
  -- The sign of the exponent, then what stands behind it, then whether its digits fit.
  repeat' split
  all_goals first
    | exact notUnsigned_error _
    | exact notUnsigned_real _ _
    | exact finish_notUnsigned _ _ _ _

theorem readFraction_notUnsigned (negative : Bool) (significand : Nat) (e : Int) (c : Cursor) :
    NotUnsigned (readFraction negative significand e c) := by
  unfold readFraction
  simp only
  split
  · exact notUnsigned_error _
  · split
    · exact readExponent_notUnsigned _ _ _ _
    · exact finish_notUnsigned _ _ _ _

theorem ofInteger_negative (n k : Nat) : ofInteger true n ≠ .unsigned k := by
  unfold ofInteger
  simp only [Bool.not_true, Bool.false_eq_true, if_false]
  split <;> exact Numeral.noConfusion

theorem readTail_negative (significand left : Nat) (c : Cursor) : NotUnsigned (readTail true significand left c) := by
  unfold readTail
  split
  · exact readFraction_notUnsigned _ _ _ _
  · split
    · exact readExponent_notUnsigned _ _ _ _
    · split
      · intro n c' h
        exact ofInteger_negative significand n (Prod.mk.inj (Except.ok.inj h)).1
      · exact finish_notUnsigned _ _ _ _

theorem readTail_notUnsigned {negative : Bool} {significand left : Nat} {c : Cursor}
    (h : c.rest.head? = some '.' ∨ atExponent c = true) : NotUnsigned (readTail negative significand left c) := by
  unfold readTail
  split
  · exact readFraction_notUnsigned _ _ _ _
  case isFalse hpoint =>
    rw [if_pos (h.resolve_left hpoint)]
    exact readExponent_notUnsigned _ _ _ _

theorem readNumber_negative (c : Cursor) : NotUnsigned (readNumber true c) := by
  unfold readNumber
  split
  · exact notUnsigned_error _
  · split
    · exact notUnsigned_error _
    · exact readTail_negative _ _ _
  · split
    · exact readTail_negative _ _ _
    · exact notUnsigned_error _

end Token

/-- No word is made of a number of another kind. -/
theorem bare_toWord {r : Except DecodeError (Numeral × Cursor)} (h : Token.NotUnsigned r) :
    bare (do
      let (n, c) ← r
      Decode.toWord n c) = none := by
  cases r with
  | error e => rfl
  | ok p =>
    obtain ⟨n, c⟩ := p
    cases n with
    | unsigned k => exact absurd rfl (h k c)
    | negative k => rfl
    | real x => rfl

/-! ## Digits -/

namespace Token

/-- Either all digits fit into the limit, or their number is beyond it. -/
theorem accumulate_cases (limit value : Nat) (ds : List Nat) :
    accumulate limit value ds = (Numeral.valueOfDigits value ds, 0) ∨
      ((accumulate limit value ds).2 ≠ 0 ∧ limit < Numeral.valueOfDigits value ds) := by
  induction ds generalizing value with
  | nil => exact .inl rfl
  | cons d ds ih =>
    unfold accumulate
    split
    case isTrue hlimit =>
      refine .inr ⟨Nat.succ_ne_zero _, ?_⟩
      exact Nat.lt_of_lt_of_le hlimit (Numeral.le_valueOfDigits _ ds)
    case isFalse => exact ih _

theorem atDigit_of_isDigit {c : Cursor} {d : Char} {more : List Char} (h : c.rest = d :: more)
    (hdigit : d.isDigit = true) : atDigit c = true := by
  simpa [atDigit, h] using hdigit

theorem not_atDigit {c : Cursor} (h : ∀ d more, c.rest = d :: more → d.isDigit = false) : atDigit c = false := by
  rw [atDigit]
  cases hrest : c.rest with
  | nil => rfl
  | cons d more => exact h d more hrest

theorem takeDigits_span (cs : List Char) (p : Place) :
    (takeDigits cs p).1 = (cs.takeWhile Char.isDigit).map (fun c => c.toNat - '0'.toNat) ∧
      (takeDigits cs p).2.rest = cs.dropWhile Char.isDigit := by
  induction cs generalizing p with
  | nil => exact ⟨rfl, rfl⟩
  | cons c cs ih =>
    unfold takeDigits
    split
    case isTrue hdigit =>
      have ⟨htake, hdrop⟩ := ih (p.past c)
      rw [List.takeWhile_cons_of_pos hdigit, List.dropWhile_cons_of_pos hdigit]
      exact ⟨by simp only [htake, List.map_cons], hdrop⟩
    case isFalse hdigit =>
      rw [List.takeWhile_cons_of_neg hdigit, List.dropWhile_cons_of_neg hdigit]
      exact ⟨rfl, rfl⟩

end Token

/-! ## Reading a word -/

theorem wordOf?_of_not_isDigit {literal : List Char} {c : Char} (hmem : c ∈ literal) (hdigit : c.isDigit = false) :
    wordOf? literal = none := by
  rw [wordOf?, Numeral.ofDigits?_of_not_isDigit hmem hdigit]
  rfl

namespace Token

/-- Behind the digits in front of the point nothing is read yet, and either all of
them fit into 64 bits or their number does not. -/
theorem readNumber_whole {c : Cursor} {whole rest : List Char} (h : Value.parseWhole c.rest = some (whole, rest))
    (hstop : ∀ d more, rest = d :: more → d.isDigit = false) :
    ∃ significand left after, readNumber false c = readTail false significand left after ∧ after.rest = rest ∧
      (left = 0 ∧ significand = Numeral.valueOf whole ∨ left ≠ 0 ∧ greatest < Numeral.valueOf whole) := by
  rcases Value.parseWhole_cases h with ⟨hzero, rfl⟩ | ⟨hzero, hdigits⟩
  · have hnext := Cursor.rest_next hzero
    refine ⟨0, 0, c.next, ?_, hnext, .inl ⟨rfl, rfl⟩⟩
    have hdigit : atDigit c.next = false := not_atDigit (by rw [hnext]; exact hstop)
    unfold readNumber
    simp only [hzero, hdigit, Bool.false_eq_true, if_false]
  · have ⟨hwhole, _, hrest⟩ := Value.parseDigits_cases hdigits
    have ⟨htake, hdrop⟩ := takeDigits_span c.rest c.place
    refine ⟨(accumulate greatest 0 (takeDigits c.rest c.place).1).1,
      (accumulate greatest 0 (takeDigits c.rest c.place).1).2, (takeDigits c.rest c.place).2, ?_,
      by rw [hdrop, hrest], ?_⟩
    · unfold readNumber
      obtain ⟨first, others, hfirst, hdigit⟩ := Value.head_of_parseDigits hdigits
      split
      case h_1 hempty =>
        rw [hempty] at hfirst
        cases hfirst
      case h_2 more hcons => exact absurd hcons (hzero more)
      case h_3 d more _ hcons =>
        rw [(List.cons.inj (hfirst.symm.trans hcons)).1] at hdigit
        rw [if_pos hdigit]
    · rw [htake, ← hwhole, Numeral.valueOf_of_isDigit (Value.isDigit_of_parseWhole h).2]
      rcases accumulate_cases greatest 0 (whole.map fun c => c.toNat - '0'.toNat) with hall | hbeyond
      · exact .inl ⟨by rw [hall], by rw [hall]⟩
      · exact .inr hbeyond

end Token

/-- A whole number that ends there is a word if it fits. -/
theorem bare_toWord_whole {whole : List Char} (hnil : whole ≠ []) (hdigits : ∀ c ∈ whole, c.isDigit = true)
    {significand left : Nat} {after : Cursor} (hafter : Closed after.rest)
    (hvalue : left = 0 ∧ significand = Numeral.valueOf whole ∨ left ≠ 0 ∧ Token.greatest < Numeral.valueOf whole) :
    bare (do
      let (n, c) ← Token.readTail false significand left after
      Decode.toWord n c) = (wordOf? whole).map fun n => (n, after.rest) := by
  have hpoint : after.rest.head? ≠ some '.' := by
    intro hhead
    obtain ⟨more, hcons⟩ := List.head?_eq_some_iff.1 hhead
    rw [hcons] at hafter
    exact hafter.ne (by decide) rfl
  have hexponent : Token.atExponent after = false := by
    rw [Token.atExponent]
    cases hrest : after.rest with
    | nil => rfl
    | cons d more =>
      rw [hrest] at hafter
      simpa [not_or] using hafter.not_exponent
  rw [wordOf?, Numeral.ofDigits?_of_isDigit hnil hdigits, Option.bind_some]
  simp only [Token.readTail, if_neg hpoint, hexponent, Bool.false_eq_true, if_false]
  rcases hvalue with ⟨rfl, rfl⟩ | ⟨hleft, hbeyond⟩
  · rw [if_pos rfl]
    show bare (if Numeral.valueOf whole < UInt16.size then _ else _) = _
    split <;> rfl
  · have hlarge : ¬ Numeral.valueOf whole < UInt16.size := by
      simp only [Token.greatest, UInt64.size] at hbeyond
      simp only [UInt16.size]
      omega
    rw [if_neg hleft, if_neg hlarge, bare_toWord (Token.finish_notUnsigned _ _ _ _)]
    rfl

/-- A word is read from the digits of a number below 2^16. -/
theorem bare_word {c : Cursor} {literal rest : List Char}
    (h : Value.parseNumber (Value.skipSpace c.rest) = some (literal, rest)) (hrest : Closed rest) :
    bare (Decode.word c) = (wordOf? literal).map fun n => (n, rest) := by
  have hstart : c.skipSpace.rest = Value.skipSpace c.rest := Cursor.rest_skipSpace c
  unfold Decode.word
  simp only
  split
  case h_1 hnil =>
    rw [← hstart, hnil] at h
    cases h
  case h_2 more hminus =>
    rw [← hstart, hminus, Value.parseNumber_minus] at h
    obtain ⟨p, -, h⟩ := Option.map_eq_some_iff.1 h
    cases h
    rw [wordOf?_of_not_isDigit List.mem_cons_self rfl]
    exact bare_toWord (Token.readNumber_negative _)
  case h_3 d more hminus hcons =>
    rw [← hstart, Value.parseNumber_of_ne_minus fun more h => hminus (List.cons.inj (hcons.symm.trans h)).1] at h
    obtain ⟨whole, fraction, exponent, behindWhole, behindFraction, hwhole, hfraction, hexponent, rfl⟩ :=
      Value.parseUnsigned_cases h
    have ⟨hnil, hdigits⟩ := Value.isDigit_of_parseWhole hwhole
    have hdigit : d.isDigit = true := by
      rw [hcons] at hwhole
      exact Value.head_of_parseWhole hwhole
    obtain ⟨significand, left, after, hread, hafter, hvalue⟩ :=
      Token.readNumber_whole hwhole (Value.not_isDigit_behindWhole hfraction hexponent hrest)
    rw [if_pos hdigit, hread]
    rcases Value.parseFraction_cases hfraction with ⟨rfl, rfl, -⟩ | ⟨hpoint, hmem⟩
    · rcases Value.parseExponent_cases hexponent with ⟨rfl, rfl, -⟩ | ⟨e, behind, rfl, hletter, hmem⟩
      · subst hafter
        rw [List.append_nil, List.append_nil]
        exact bare_toWord_whole hnil hdigits hrest hvalue
      · have hnone : e.isDigit = false := by rcases hletter with rfl | rfl <;> rfl
        have hlast : Token.atExponent after = true := by simpa [Token.atExponent, hafter] using hletter
        rw [bare_toWord (Token.readTail_notUnsigned (.inr hlast)),
          wordOf?_of_not_isDigit (List.mem_append_right _ hmem) hnone]
        rfl
    · rw [← hafter] at hpoint
      rw [bare_toWord (Token.readTail_notUnsigned (.inl hpoint)),
        wordOf?_of_not_isDigit (List.mem_append_left _ (List.mem_append_right _ hmem)) rfl]
      rfl

end AgentHost.Json
