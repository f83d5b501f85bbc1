import AgentHost.Number.Numeral
import AgentHost.Number.Shortest
/-!
# Digits of a number

The digits of a natural number are a numeral of it: each is a decimal digit, the
first is no zero unless it is the only one, and they read back as the number.
-/

namespace AgentHost.Number

namespace Shortest

theorem digitsOf_lt_ten {n d : Nat} (h : d ∈ digitsOf n) : d < 10 := by
  fun_induction digitsOf n with
  | case1 n hn =>
    rw [List.mem_singleton] at h
    omega
  | case2 n hn ih =>
    rcases List.mem_append.1 h with hd | hd
    · exact ih hd
    · rw [List.mem_singleton] at hd
      omega

theorem digitsOf_ne_nil (n : Nat) : digitsOf n ≠ [] := by
  unfold digitsOf
  split <;> simp

/-- Only zero starts with the digit zero. -/
theorem eq_zero_of_digitsOf {n : Nat} {ds : List Nat} (h : digitsOf n = 0 :: ds) : n = 0 ∧ ds = [] := by
  fun_induction digitsOf n generalizing ds with
  | case1 n hn =>
    obtain ⟨rfl, rfl⟩ := List.cons.inj h
    exact ⟨rfl, rfl⟩
  | case2 n hn ih =>
    cases htens : digitsOf (n / 10) with
    | nil => exact absurd htens (digitsOf_ne_nil _)
    | cons d more =>
      rw [htens] at h
      obtain ⟨rfl, -⟩ := List.cons.inj h
      have := (ih htens).1
      omega

/-- The shortest digits of a number are digits. -/
theorem digits_lt_ten (f : Binary.Format) (m : Nat) (e : Int) : ∀ d ∈ (digits f m e).digits, d < 10 := by
  have hdecimal : ∀ (c : Nat) (k : Int), ∀ d ∈ (toDecimal c k).digits, d < 10 := by
    intro c k d hd
    have hkept : d ∈ (digitsOf c).reverse.dropWhile (· == 0) := List.mem_reverse.1 hd
    exact digitsOf_lt_ten (List.mem_reverse.1 ((List.dropWhile_sublist _).mem hkept))
  have hsearch : ∀ (fuel : Nat) (k : Int), ∀ d ∈ (search f m e fuel k).digits, d < 10 := by
    intro fuel
    induction fuel with
    | zero => exact fun k => hdecimal _ k
    | succ fuel ih =>
      intro k
      unfold search
      split
      · exact hdecimal _ k
      · exact ih _
  exact hsearch _ _

end Shortest

/-! ## Their characters -/

theorem isDigit_ofNat {d : Nat} (h : d < 10) : (Char.ofNat (48 + d)).isDigit = true := by
  have hall : ∀ d : Fin 10, (Char.ofNat (48 + d.val)).isDigit = true := by decide
  exact hall ⟨d, h⟩

theorem toNat_ofNat_digit {d : Nat} (h : d < 10) : (Char.ofNat (48 + d)).toNat - '0'.toNat = d := by
  have hall : ∀ d : Fin 10, (Char.ofNat (48 + d.val)).toNat - '0'.toNat = d.val := by decide
  exact hall ⟨d, h⟩

namespace Layout

theorem isDigit_of_mem {n : Nat} {c : Char} (h : c ∈ digitChars (Shortest.digitsOf n)) : c.isDigit = true := by
  obtain ⟨d, hd, rfl⟩ := List.mem_map.1 h
  exact isDigit_ofNat (Shortest.digitsOf_lt_ten hd)

theorem digitChars_ne_nil (n : Nat) : digitChars (Shortest.digitsOf n) ≠ [] := by
  simp [digitChars, Shortest.digitsOf_ne_nil]

/-- Only zero starts with the character `0`. -/
theorem eq_nil_of_digitChars {n : Nat} {more : List Char} (h : digitChars (Shortest.digitsOf n) = '0' :: more) :
    more = [] := by
  cases hdigits : Shortest.digitsOf n with
  | nil => exact absurd hdigits (Shortest.digitsOf_ne_nil n)
  | cons d ds =>
    rw [hdigits] at h
    obtain ⟨hd, rfl⟩ := List.cons.inj h
    have hlt : d < 10 := Shortest.digitsOf_lt_ten (n := n) (by rw [hdigits]; exact List.mem_cons_self)
    have hchar : Char.ofNat (48 + d) = '0' := hd
    have hzero : d = 0 := by
      rw [← toNat_ofNat_digit hlt, hchar]
      rfl
    subst hzero
    rw [(Shortest.eq_zero_of_digitsOf hdigits).2]
    rfl

end Layout

/-! ## Reading them back -/

namespace Numeral

theorem digit?_of_isDigit {c : Char} (h : c.isDigit = true) : digit? c = some (c.toNat - '0'.toNat) := by
  rw [digit?, if_pos h]

theorem digitsFrom?_append (radix value : Nat) (xs ys : List Char) :
    digitsFrom? radix value (xs ++ ys) = (digitsFrom? radix value xs).bind fun v => digitsFrom? radix v ys := by
  induction xs generalizing value with
  | nil => rfl
  | cons c xs ih =>
    simp only [List.cons_append, digitsFrom?]
    split
    · split
      · exact ih _
      · rfl
    · rfl

theorem digitsFrom?_digitsOf (n : Nat) : digitsFrom? 10 0 (Layout.digitChars (Shortest.digitsOf n)) = some n := by
  have hone : ∀ value d, d < 10 → digitsFrom? 10 value [Char.ofNat (48 + d)] = some (value * 10 + d) := by
    intro value d hd
    simp only [digitsFrom?, digit?_of_isDigit (isDigit_ofNat hd), toNat_ofNat_digit hd, if_pos hd]
  fun_induction Shortest.digitsOf n with
  | case1 n hn => simpa [Layout.digitChars] using hone 0 n hn
  | case2 n hn ih =>
    -- The last digit stands behind those of the tens.
    have hsplit : Layout.digitChars (Shortest.digitsOf (n / 10) ++ [n % 10]) =
        Layout.digitChars (Shortest.digitsOf (n / 10)) ++ [Char.ofNat (48 + n % 10)] := List.map_append
    rw [hsplit, digitsFrom?_append, ih, Option.bind_some, hone _ _ (by omega)]
    congr 1
    omega

/-- A number is what its digits denote. -/
theorem ofDigits?_digitsOf (n : Nat) : ofDigits? 10 (Layout.digitChars (Shortest.digitsOf n)) = some n := by
  cases hchars : Layout.digitChars (Shortest.digitsOf n) with
  | nil => exact absurd hchars (Layout.digitChars_ne_nil n)
  | cons c cs =>
    rw [← digitsFrom?_digitsOf n, hchars]
    rfl

/-! ## Any characters -/

/-- The number of some digits behind those of a value. -/
def valueOfDigits (value : Nat) (ds : List Nat) : Nat := ds.foldl (fun v d => v * 10 + d) value

theorem le_valueOfDigits (value : Nat) (ds : List Nat) : value ≤ valueOfDigits value ds := by
  induction ds generalizing value with
  | nil => exact Nat.le_refl _
  | cons d ds ih =>
    have := ih (value * 10 + d)
    simp only [valueOfDigits, List.foldl_cons] at this ⊢
    omega

theorem digitsFrom?_of_isDigit {cs : List Char} (h : ∀ c ∈ cs, c.isDigit = true) (value : Nat) :
    digitsFrom? 10 value cs = some (valueOfDigits value (cs.map fun c => c.toNat - '0'.toNat)) := by
  induction cs generalizing value with
  | nil => rfl
  | cons c cs ih =>
    have hdigit := h c List.mem_cons_self
    have hlt : c.toNat - '0'.toNat < 10 := by
      simp only [Char.isDigit, Bool.and_eq_true, decide_eq_true_eq] at hdigit
      have hle : c.toNat ≤ '9'.toNat := hdigit.2
      have hnine : '9'.toNat = '0'.toNat + 9 := rfl
      omega
    simp only [digitsFrom?, digit?_of_isDigit hdigit, if_pos hlt]
    exact ih (fun d hd => h d (List.mem_cons_of_mem _ hd)) _

theorem valueOf_of_isDigit {cs : List Char} (h : ∀ c ∈ cs, c.isDigit = true) :
    valueOf cs = valueOfDigits 0 (cs.map fun c => c.toNat - '0'.toNat) := by
  rw [valueOf, digitsFrom?_of_isDigit h]
  rfl

theorem ofDigits?_of_isDigit {cs : List Char} (hnil : cs ≠ []) (h : ∀ c ∈ cs, c.isDigit = true) :
    ofDigits? 10 cs = some (valueOf cs) := by
  rw [valueOf_of_isDigit h]
  cases cs with
  | nil => exact absurd rfl hnil
  | cons c cs => exact digitsFrom?_of_isDigit h 0

theorem digit?_ge_ten {c : Char} {d : Nat} (hdigit : c.isDigit = false) (h : digit? c = some d) : 10 ≤ d := by
  simp only [digit?, hdigit, Bool.false_eq_true, if_false] at h
  split at h
  · cases h
    omega
  · split at h
    · cases h
      omega
    · cases h

theorem digitsFrom?_of_not_isDigit {cs : List Char} {c : Char} (hmem : c ∈ cs) (hdigit : c.isDigit = false)
    (value : Nat) : digitsFrom? 10 value cs = none := by
  induction cs generalizing value with
  | nil => cases hmem
  | cons first cs ih =>
    unfold digitsFrom?
    split
    case h_1 d hfirst =>
      split
      case isTrue hlt =>
        rcases List.mem_cons.1 hmem with rfl | hmem
        · have := digit?_ge_ten hdigit hfirst
          omega
        · exact ih hmem _
      case isFalse => rfl
    case h_2 => rfl

theorem ofDigits?_of_not_isDigit {cs : List Char} {c : Char} (hmem : c ∈ cs) (hdigit : c.isDigit = false) :
    ofDigits? 10 cs = none := by
  cases cs with
  | nil => cases hmem
  | cons first more => exact digitsFrom?_of_not_isDigit hmem hdigit 0

end Numeral

end AgentHost.Number
