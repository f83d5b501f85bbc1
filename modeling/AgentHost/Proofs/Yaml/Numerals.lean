import AgentHost.Proofs.Number.Digits
import AgentHost.Yaml.Scalar
/-!
# The numerals of a document

An unsigned numeral is decimal without a spare zero, or a radix and its digits,
and may have a plus in front. `Denotes` says so without any reader, and
`unsigned?_iff` that the reader accepts these numerals and gives their numbers.
-/

namespace AgentHost.Yaml.Scalar

open Number

/-! ## The grammar -/

/-- The digits of all radixes up to sixteen. -/
def lowerDigits : List Char := "0123456789abcdef".toList

/-- The same in capitals. -/
def upperDigits : List Char := "0123456789ABCDEF".toList

/-- The character is the digit `d` of that radix, in either case. -/
def IsDigit (radix : Nat) (c : Char) (d : Nat) : Prop :=
  d < radix ∧ (lowerDigits[d]? = some c ∨ upperDigits[d]? = some c)

/-- One digit or more, the most significant first, and their number. -/
inductive Digits (radix : Nat) : List Char → Nat → Prop
  | one {c : Char} {d : Nat} (digit : IsDigit radix c d) : Digits radix [c] d
  | more {cs : List Char} {c : Char} {n d : Nat} (front : Digits radix cs n) (digit : IsDigit radix c d) :
    Digits radix (cs ++ [c]) (n * radix + d)

/-- A numeral without a sign and its number. -/
inductive Magnitude : List Char → Nat → Prop
  | decimal {cs : List Char} {n : Nat} (digits : Digits 10 cs n) (tight : cs.head? = some '0' → cs = ['0']) :
    Magnitude cs n
  | hexadecimal {cs : List Char} {n : Nat} (digits : Digits 16 cs n) : Magnitude ('0' :: 'x' :: cs) n
  | octal {cs : List Char} {n : Nat} (digits : Digits 8 cs n) : Magnitude ('0' :: 'o' :: cs) n
  | binary {cs : List Char} {n : Nat} (digits : Digits 2 cs n) : Magnitude ('0' :: 'b' :: cs) n

/-- A numeral with an optional plus and its number. -/
inductive Denotes : List Char → Nat → Prop
  | bare {cs : List Char} {n : Nat} (numeral : Magnitude cs n) : Denotes cs n
  | plus {cs : List Char} {n : Nat} (numeral : Magnitude cs n) : Denotes ('+' :: cs) n

/-! ## Digits are read as what they are -/

theorem eq_ofNat {c : Char} {n : Nat} (h : c.toNat = n) : c = Char.ofNat n := by
  rw [← h, Char.ofNat_toNat]

theorem isDigit_of_digit? {c : Char} {d : Nat} (h : Numeral.digit? c = some d) (hlt : d < 16) :
    lowerDigits[d]? = some c ∨ upperDigits[d]? = some c := by
  have hdecimal : ∀ d : Fin 10, lowerDigits[d.val]? = some (Char.ofNat (48 + d.val)) := by decide
  have hlower : ∀ k : Fin 6, lowerDigits[10 + k.val]? = some (Char.ofNat (97 + k.val)) := by decide
  have hupper : ∀ k : Fin 6, upperDigits[10 + k.val]? = some (Char.ofNat (65 + k.val)) := by decide
  unfold Numeral.digit? at h
  split at h
  case isTrue hc =>
    simp only [Char.isDigit, Bool.and_eq_true, decide_eq_true_eq] at hc
    have hge : 48 ≤ c.toNat := hc.1
    have hle : c.toNat ≤ 57 := hc.2
    have hd : c.toNat - 48 = d := Option.some.inj h
    left
    rw [show c = Char.ofNat (48 + d) from eq_ofNat (by omega)]
    exact hdecimal ⟨d, by omega⟩
  case isFalse =>
    split at h
    case isTrue hc =>
      have hge : 97 ≤ c.toNat := hc.1
      have hd : c.toNat - 97 + 10 = d := Option.some.inj h
      obtain ⟨k, rfl⟩ : ∃ k, d = 10 + k := ⟨d - 10, by omega⟩
      left
      rw [show c = Char.ofNat (97 + k) from eq_ofNat (by omega)]
      exact hlower ⟨k, by omega⟩
    case isFalse =>
      split at h
      case isTrue hc =>
        have hge : 65 ≤ c.toNat := hc.1
        have hd : c.toNat - 65 + 10 = d := Option.some.inj h
        obtain ⟨k, rfl⟩ : ∃ k, d = 10 + k := ⟨d - 10, by omega⟩
        right
        rw [show c = Char.ofNat (65 + k) from eq_ofNat (by omega)]
        exact hupper ⟨k, by omega⟩
      case isFalse => cases h

theorem digit?_of_isDigit {c : Char} {d : Nat} (hlt : d < 16)
    (h : lowerDigits[d]? = some c ∨ upperDigits[d]? = some c) :
    Numeral.digit? c = some d := by
  have hlower : ∀ d : Fin 16, lowerDigits[d.val]?.bind Numeral.digit? = some d.val := by decide
  have hupper : ∀ d : Fin 16, upperDigits[d.val]?.bind Numeral.digit? = some d.val := by decide
  rcases h with h | h
  · rw [← hlower ⟨d, hlt⟩, h, Option.bind_some]
  · rw [← hupper ⟨d, hlt⟩, h, Option.bind_some]

theorem isDigit_iff {radix : Nat} (hradix : radix ≤ 16) {c : Char} {d : Nat} :
    IsDigit radix c d ↔ Numeral.digit? c = some d ∧ d < radix := by
  constructor
  · rintro ⟨hlt, h⟩
    exact ⟨digit?_of_isDigit (by omega) h, hlt⟩
  · rintro ⟨h, hlt⟩
    exact ⟨hlt, isDigit_of_digit? h (by omega)⟩

/-- Digits behind some that were read are read with them. -/
theorem digits_of_digitsFrom? {radix : Nat} (hradix : radix ≤ 16) {front cs : List Char} {value n : Nat}
    (hfront : Digits radix front value) (h : Numeral.digitsFrom? radix value cs = some n) :
    Digits radix (front ++ cs) n := by
  induction cs generalizing front value with
  | nil =>
    obtain rfl := Option.some.inj h
    simpa using hfront
  | cons c cs ih =>
    unfold Numeral.digitsFrom? at h
    split at h
    case h_1 d hdigit =>
      split at h
      case isTrue hlt =>
        have := ih (hfront.more ((isDigit_iff hradix).2 ⟨hdigit, hlt⟩)) h
        rwa [List.append_assoc] at this
      case isFalse => cases h
    case h_2 => cases h

theorem ofDigits?_eq_digitsFrom? {radix : Nat} {cs : List Char} (h : cs ≠ []) :
    Numeral.ofDigits? radix cs = Numeral.digitsFrom? radix 0 cs := by
  cases cs with
  | nil => exact absurd rfl h
  | cons c cs => rfl

theorem Digits.ne_nil {radix : Nat} {cs : List Char} {n : Nat} (h : Digits radix cs n) : cs ≠ [] := by
  cases h <;> simp

theorem digitsFrom?_single {radix : Nat} (hradix : radix ≤ 16) {c : Char} {d : Nat} (h : IsDigit radix c d)
    (value : Nat) : Numeral.digitsFrom? radix value [c] = some (value * radix + d) := by
  obtain ⟨hdigit, hlt⟩ := (isDigit_iff hradix).1 h
  simp only [Numeral.digitsFrom?, hdigit, if_pos hlt]

theorem ofDigits?_iff {radix : Nat} (hradix : radix ≤ 16) {cs : List Char} {n : Nat} :
    Numeral.ofDigits? radix cs = some n ↔ Digits radix cs n := by
  constructor
  · intro h
    cases cs with
    | nil => cases h
    | cons c cs =>
      rw [ofDigits?_eq_digitsFrom? (List.cons_ne_nil c cs)] at h
      unfold Numeral.digitsFrom? at h
      split at h
      case h_1 d hdigit =>
        split at h
        case isTrue hlt =>
          rw [Nat.zero_mul, Nat.zero_add] at h
          exact digits_of_digitsFrom? hradix (.one ((isDigit_iff hradix).2 ⟨hdigit, hlt⟩)) h
        case isFalse => cases h
      case h_2 => cases h
  · intro h
    rw [ofDigits?_eq_digitsFrom? h.ne_nil]
    induction h with
    | one hdigit => simpa using digitsFrom?_single hradix hdigit 0
    | more _ hdigit ih => rw [Numeral.digitsFrom?_append, ih, Option.bind_some, digitsFrom?_single hradix hdigit]

/-! ## Numerals are read as what they denote -/

theorem Digits.isDigit {cs : List Char} {n : Nat} (h : Digits 10 cs n) : ∀ c ∈ cs, c.isDigit = true := by
  intro c hc
  cases hdigit : c.isDigit with
  | true => rfl
  | false =>
    have := Numeral.ofDigits?_of_not_isDigit hc hdigit
    rw [(ofDigits?_iff (by decide)).2 h] at this
    cases this

theorem hasSpareZero_iff {cs : List Char} {n : Nat} (h : Digits 10 cs n) :
    hasSpareZero cs = false ↔ (cs.head? = some '0' → cs = ['0']) := by
  have hall := h.isDigit
  have hsign : (Numeral.splitSign cs).2 = cs := by
    unfold Numeral.splitSign
    split
    · exact absurd (hall '-' List.mem_cons_self) (by decide)
    · exact absurd (hall '+' List.mem_cons_self) (by decide)
    · rfl
  unfold hasSpareZero
  rw [hsign]
  split
  case h_1 rest =>
    have hrest : rest.all Char.isDigit = true :=
      List.all_eq_true.2 fun c hc => hall c (List.mem_cons_of_mem _ hc)
    cases rest with
    | nil => simp
    | cons c rest => simp [hrest]
  case h_2 hhead =>
    refine ⟨fun _ h => ?_, fun _ => rfl⟩
    cases cs with
    | nil => cases h
    | cons c rest =>
      obtain rfl := Option.some.inj h
      exact absurd rfl (hhead rest)

theorem magnitude?_iff {cs : List Char} {n : Nat} : magnitude? cs = some n ↔ Magnitude cs n := by
  constructor
  · intro h
    unfold magnitude? at h
    split at h
    case h_1 digits => exact .hexadecimal ((ofDigits?_iff (by decide)).1 h)
    case h_2 digits => exact .octal ((ofDigits?_iff (by decide)).1 h)
    case h_3 digits => exact .binary ((ofDigits?_iff (by decide)).1 h)
    case h_4 =>
      split at h
      case isTrue => cases h
      case isFalse hspare =>
        have hdigits := (ofDigits?_iff (by decide)).1 h
        exact .decimal hdigits ((hasSpareZero_iff hdigits).1 (by simpa using hspare))
  · intro h
    cases h with
    | decimal hdigits htight =>
      have hall := hdigits.isDigit
      have hletter : ∀ c rest, cs = '0' :: c :: rest → c.isDigit = true :=
        fun c rest hcs => hall c (by simp [hcs])
      unfold magnitude?
      split
      case h_1 digits => exact absurd (hletter 'x' digits rfl) (by decide)
      case h_2 digits => exact absurd (hletter 'o' digits rfl) (by decide)
      case h_3 digits => exact absurd (hletter 'b' digits rfl) (by decide)
      case h_4 =>
        rw [(hasSpareZero_iff hdigits).2 htight]
        exact (ofDigits?_iff (by decide)).2 hdigits
    | hexadecimal hdigits => exact (ofDigits?_iff (by decide)).2 hdigits
    | octal hdigits => exact (ofDigits?_iff (by decide)).2 hdigits
    | binary hdigits => exact (ofDigits?_iff (by decide)).2 hdigits

theorem Magnitude.head_ne_plus {cs : List Char} {n : Nat} (h : Magnitude cs n) (rest : List Char) :
    cs ≠ '+' :: rest := by
  rintro rfl
  cases h with
  | decimal hdigits => exact absurd (hdigits.isDigit '+' List.mem_cons_self) (by decide)

/-- The reader of numerals accepts what denotes a number and gives that number. -/
theorem unsigned?_iff {cs : List Char} {n : Nat} : unsigned? cs = some n ↔ Denotes cs n := by
  constructor
  · intro h
    unfold unsigned? at h
    split at h
    case h_1 rest => exact .plus (magnitude?_iff.1 h)
    case h_2 => exact .bare (magnitude?_iff.1 h)
  · intro h
    cases h with
    | bare hnumeral =>
      unfold unsigned?
      split
      case h_1 rest => exact absurd rfl (hnumeral.head_ne_plus rest)
      case h_2 => exact magnitude?_iff.2 hnumeral
    | plus hnumeral => exact magnitude?_iff.2 hnumeral

end AgentHost.Yaml.Scalar
