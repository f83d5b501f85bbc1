import AgentHost.CommandLine.Parse
import AgentHost.Proofs.Except
import AgentHost.Proofs.Yaml.Numerals
/-!
# The numerals of a port

A port on the command line is a decimal with an optional plus, of any number of
digits, whose value is from 1 to 65535. `IsPort` says so without a reader, and
`parsePort_iff` that the reader accepts these texts and gives their values.
-/

namespace AgentHost.CommandLine

open Number Yaml.Scalar

/-- The text is decimal digits with an optional plus in front, and their value is the
port, which is not zero. -/
def IsPort (cs : List Char) (port : UInt16) : Prop :=
  port ≠ 0 ∧ ∃ digits, (cs = digits ∨ cs = '+' :: digits) ∧ Digits 10 digits port.toNat

theorem IsPort.unique {cs : List Char} {port port' : UInt16} (h : IsPort cs port) (h' : IsPort cs port') :
    port = port' := by
  obtain ⟨-, digits, htext, hdigits⟩ := h
  obtain ⟨-, digits', htext', hdigits'⟩ := h'
  have hplus : ∀ {ds : List Char} {n : Nat}, Digits 10 ds n → ∀ more, ds ≠ '+' :: more := by
    rintro ds n hdigits more rfl
    exact absurd (hdigits.isDigit '+' List.mem_cons_self) (by decide)
  have hsame : digits = digits' := by
    rcases htext with rfl | rfl
    · rcases htext' with h | h
      · exact h
      · exact absurd h (hplus hdigits _)
    · rcases htext' with h | h
      · exact absurd h.symm (hplus hdigits' _)
      · exact (List.cons.inj h).2
  rw [hsame] at hdigits
  have hvalue := (ofDigits?_iff (by decide)).2 hdigits
  rw [(ofDigits?_iff (by decide)).2 hdigits'] at hvalue
  exact UInt16.toNat_inj.1 (Option.some.inj hvalue).symm

/-! ## Digits up to a limit -/

theorem digit?_lt_ten {c : Char} (h : c.isDigit = true) :
    ∃ d, d = c.toNat - '0'.toNat ∧ d < 10 ∧ Numeral.digit? c = some d := by
  refine ⟨_, rfl, ?_, Numeral.digit?_of_isDigit h⟩
  simp only [Char.isDigit, Bool.and_eq_true, decide_eq_true_eq] at h
  have hle : c.toNat ≤ '9'.toNat := h.2
  have hnine : '9'.toNat = '0'.toNat + 9 := rfl
  omega

theorem le_of_digitsFrom? {radix value n : Nat} {cs : List Char} (hradix : 1 ≤ radix)
    (h : Numeral.digitsFrom? radix value cs = some n) : value ≤ n := by
  induction cs generalizing value with
  | nil => exact Nat.le_of_eq (Option.some.inj h)
  | cons c cs ih =>
    rw [Numeral.digitsFrom?] at h
    split at h
    · split at h
      · exact Nat.le_trans (Nat.le_trans (Nat.le_mul_of_pos_right value hradix) (Nat.le_add_right _ _)) (ih h)
      · cases h
    · cases h

/-- Digits are read as long as what they denote is within the limit. That grows with
every digit, so the limit is passed for good. -/
theorem parseDigits_iff {limit value n : Nat} {beyond : NumberProblem} {cs : List Char} (h : value ≤ limit) :
    parseDigits limit value beyond cs = .ok n ↔ Numeral.digitsFrom? 10 value cs = some n ∧ n ≤ limit := by
  induction cs generalizing value with
  | nil =>
    simp only [parseDigits, Numeral.digitsFrom?, Except.ok.injEq, Option.some.injEq]
    exact ⟨fun hn => ⟨hn, hn ▸ h⟩, fun hn => hn.1⟩
  | cons c cs ih =>
    cases hdigit : c.isDigit with
    | false =>
      have hnone : Numeral.digitsFrom? 10 value (c :: cs) = none :=
        Numeral.digitsFrom?_of_not_isDigit List.mem_cons_self hdigit value
      simp [parseDigits, hdigit, hnone]
    | true =>
      obtain ⟨d, hd, hlt, hread⟩ := digit?_lt_ten hdigit
      simp only [parseDigits, hdigit, Bool.not_true, Bool.false_eq_true, if_false, ← hd, Numeral.digitsFrom?, hread,
        if_pos hlt]
      split
      case isTrue hbeyond =>
        constructor
        · intro herror
          cases herror
        · rintro ⟨hmore, hn⟩
          have := le_of_digitsFrom? (by decide) hmore
          omega
      case isFalse hwithin => exact ih (Nat.not_lt.1 hwithin)

theorem parseDigits_digits_iff {limit n : Nat} {beyond : NumberProblem} {digits : List Char} (h : digits ≠ []) :
    parseDigits limit 0 beyond digits = .ok n ↔ Digits 10 digits n ∧ n ≤ limit := by
  rw [parseDigits_iff (Nat.zero_le limit), ← ofDigits?_eq_digitsFrom? h, ofDigits?_iff (by decide)]

/-! ## Ports -/

/-- What is read as a positive number has digits behind an optional plus. -/
theorem digits_of_parseInteger {cs : List Char} {n : Int} (hpos : 1 ≤ n) (h : parseInteger cs = .ok n) :
    ∃ digits, (cs = digits ∨ cs = '+' :: digits) ∧ Digits 10 digits n.toNat := by
  unfold parseInteger at h
  split at h
  · cases h
  · cases h
  · cases h
  case h_4 digits hplus =>
    obtain ⟨m, hm, rfl⟩ := ok_of_map h
    have hnil : digits ≠ [] := fun hnil => hplus (hnil ▸ rfl)
    exact ⟨digits, .inr rfl, ((parseDigits_digits_iff hnil).1 hm).1⟩
  case h_5 digits _ =>
    obtain ⟨m, hm, rfl⟩ := ok_of_map h
    obtain ⟨k, -, hk⟩ := ok_of_bind hm
    obtain rfl : (k : Int) = m := Except.ok.inj hk
    omega
  case h_6 hnil _ _ _ _ =>
    obtain ⟨m, hm, rfl⟩ := ok_of_map h
    exact ⟨cs, .inl rfl, ((parseDigits_digits_iff fun h => hnil h).1 hm).1⟩

theorem parseInteger_of_digits {cs digits : List Char} {n : Nat} (htext : cs = digits ∨ cs = '+' :: digits)
    (hdigits : Digits 10 digits n) (hn : n ≤ 65535) : parseInteger cs = .ok n := by
  have hlimit : n ≤ UInt64.size / 2 - 1 := Nat.le_trans hn (by decide)
  have hread : (parseDigits (UInt64.size / 2 - 1) 0 .tooLarge digits).map Int.ofNat = .ok n := by
    rw [(parseDigits_digits_iff hdigits.ne_nil).2 ⟨hdigits, hlimit⟩]
    rfl
  obtain ⟨c, more, rfl⟩ := List.exists_cons_of_ne_nil hdigits.ne_nil
  have hfirst : c.isDigit = true := hdigits.isDigit c List.mem_cons_self
  rcases htext with rfl | rfl
  · unfold parseInteger
    split
    case h_6 => exact hread
    all_goals
      rename_i hcons
      cases hcons
      try exact absurd hfirst (by decide)
  · exact hread

/-- A port is read from its numerals and from nothing else. -/
theorem parsePort_iff {cs : List Char} {port : UInt16} : parsePort cs = .ok port ↔ IsPort cs port := by
  unfold parsePort
  constructor
  · intro h
    split at h
    · cases h
    case h_2 n hn =>
      split at h
      case isTrue hrange =>
        cases h
        have hport : (UInt16.ofNat n.toNat).toNat = n.toNat := by
          rw [UInt16.toNat_ofNat']
          omega
        refine ⟨fun hzero => ?_, ?_⟩
        · rw [hzero, UInt16.toNat_zero] at hport
          omega
        · rw [hport]
          exact digits_of_parseInteger hrange.1 hn
      case isFalse => cases h
  · rintro ⟨hzero, digits, htext, hdigits⟩
    have hlt := port.toNat_lt
    have hpos : 1 ≤ port.toNat := Nat.pos_of_ne_zero fun h => hzero (UInt16.toNat_inj.1 h)
    rw [parseInteger_of_digits htext hdigits (by omega)]
    simp only
    rw [if_pos (by omega)]
    simp

end AgentHost.CommandLine
