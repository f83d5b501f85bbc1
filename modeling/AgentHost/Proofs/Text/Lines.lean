import AgentHost.Proofs.Number.Digits
import AgentHost.Text.Quoted
import AgentHost.Yaml.Cursor
/-!
# Texts on one line

A text is on one line if it has no line break in it: no line feed or carriage return,
and none of the breaks beyond ASCII. Numbers are on one line, and so is every text
between quotes, since its breaks are written as escapes.
-/

namespace AgentHost.Text

open Yaml (isBreak)

/-- The text has no line break in it. -/
def OneLine (text : String) : Prop := ∀ c ∈ text.toList, isBreak c = false

theorem forall_isBreak_iff (cs : List Char) :
    (∀ c ∈ cs, isBreak c = false) ↔ (cs.all fun c => !isBreak c) = true := by
  simp

instance (text : String) : Decidable (OneLine text) := decidable_of_iff _ (forall_isBreak_iff text.toList).symm

@[simp] theorem oneLine_append {a b : String} : OneLine (a ++ b) ↔ OneLine a ∧ OneLine b := by
  simp only [OneLine, String.toList_append, List.forall_mem_append]

theorem OneLine.append {a b : String} (ha : OneLine a) (hb : OneLine b) : OneLine (a ++ b) :=
  oneLine_append.2 ⟨ha, hb⟩

theorem oneLine_ofList {cs : List Char} : OneLine (String.ofList cs) ↔ ∀ c ∈ cs, isBreak c = false := by
  rw [OneLine, String.toList_ofList]

theorem OneLine.ofChars {cs : List Char} (h : (cs.all fun c => !isBreak c) = true) : OneLine (String.ofList cs) :=
  oneLine_ofList.2 ((forall_isBreak_iff cs).2 h)

theorem oneLine_ite {p : Prop} [Decidable p] {a b : String} (ha : OneLine a) (hb : OneLine b) :
    OneLine (if p then a else b) := by
  split
  · exact ha
  · exact hb

/-! ## Characters -/

theorem isBreak_iff {c : Char} :
    isBreak c = true ↔ c = '\n' ∨ c = '\r' ∨ c = '\u0085' ∨ c = '\u2028' ∨ c = '\u2029' := by
  simp [isBreak, or_assoc]

/-- Visible ASCII breaks no line. -/
theorem isBreak_of_visible {c : Char} (hlow : 0x20 ≤ c.toNat) (hhigh : c.toNat < 0x7F) : isBreak c = false := by
  rw [Bool.eq_false_iff]
  intro hbreak
  rcases isBreak_iff.1 hbreak with rfl | rfl | rfl | rfl | rfl <;> revert hlow hhigh <;> decide

theorem isBreak_of_isDigit {c : Char} (h : c.isDigit = true) : isBreak c = false := by
  simp only [Char.isDigit, Bool.and_eq_true, decide_eq_true_eq] at h
  have hlow : 48 ≤ c.toNat := h.1
  have hhigh : c.toNat ≤ 57 := h.2
  exact isBreak_of_visible (by omega) (by omega)

/-! ## Numbers -/

theorem oneLine_nat (n : Nat) : OneLine (toString n) := by
  rw [Nat.toString_eq_ofList_toDigits, oneLine_ofList]
  exact fun c hc => isBreak_of_isDigit (Nat.isDigit_of_mem_toDigits (by decide) (by decide) hc)

theorem oneLine_int (n : Int) : OneLine (toString n) := by
  cases n with
  | ofNat n => exact oneLine_nat n
  | negSucc n => exact oneLine_append.2 ⟨.ofChars rfl, oneLine_nat (n + 1)⟩

section Binary
open Number Number.Layout

theorem isBreak_digitChars {ds : List Nat} (h : ∀ d ∈ ds, d < 10) :
    ∀ c ∈ digitChars ds, isBreak c = false := by
  intro c hc
  obtain ⟨d, hd, rfl⟩ := List.mem_map.1 hc
  exact isBreak_of_isDigit (Number.isDigit_ofNat (h d hd))

theorem isBreak_positional {d : Decimal} (h : ∀ x ∈ d.digits, x < 10) :
    ∀ c ∈ positional d, isBreak c = false := by
  have hzeros : ∀ n, ∀ c ∈ List.replicate n '0', isBreak c = false := by
    intro n c hc
    rw [List.eq_of_mem_replicate hc]
    decide
  unfold positional
  simp only
  split
  · simp only [List.forall_mem_append]
    exact ⟨⟨(forall_isBreak_iff _).2 rfl, hzeros _⟩, isBreak_digitChars h⟩
  split
  · simp only [List.forall_mem_append]
    exact ⟨⟨isBreak_digitChars h, hzeros _⟩, (forall_isBreak_iff _).2 rfl⟩
  · simp only [List.forall_mem_append]
    exact ⟨⟨isBreak_digitChars fun x hx => h x (List.mem_of_mem_take hx), (forall_isBreak_iff _).2 rfl⟩,
      isBreak_digitChars fun x hx => h x (List.mem_of_mem_drop hx)⟩

theorem oneLine_plain (f : Binary.Format) (x : Binary) : OneLine (plain.text f x) := by
  match x with
  | .nan => exact .ofChars rfl
  | .infinite true => exact .ofChars rfl
  | .infinite false => exact .ofChars rfl
  | .finite negative m e =>
    rw [text, oneLine_ofList, List.forall_mem_append]
    refine ⟨by cases negative <;> exact (forall_isBreak_iff _).2 rfl, ?_⟩
    unfold magnitude
    split
    · exact (forall_isBreak_iff _).2 rfl
    · exact isBreak_positional (Shortest.digits_lt_ten f m e)

end Binary

/-! ## Between quotes -/

namespace Quoted

theorem isBreak_hexDigit {n : Nat} (h : n < 16) : isBreak (hexDigit n) = false := by
  have hall : ∀ n : Fin 16, isBreak (hexDigit n.val) = false := by decide
  exact hall ⟨n, h⟩

theorem isBreak_hex (n : Nat) : ∀ c ∈ hex n, isBreak c = false := by
  induction n using hex.induct with
  | case1 n hsmall =>
    rw [hex, if_pos hsmall]
    simpa using isBreak_hexDigit hsmall
  | case2 n hlarge ih =>
    rw [hex, if_neg hlarge, List.forall_mem_append]
    exact ⟨ih, by simpa using isBreak_hexDigit (Nat.mod_lt n (by decide))⟩

theorem isHidden_eq_any_toList {c : Char} (h : 0x7F ≤ c.toNat) :
    isHidden c = hiddenRanges.toList.any fun r => r.1 ≤ c.toNat && c.toNat ≤ r.2 := by
  rw [isHidden, if_neg (by omega), if_neg (by omega), Array.any_toList]

/-- Every break is hidden, so it never stands for itself. -/
theorem isHidden_of_isBreak {c : Char} (h : isBreak c = true) : isHidden c = true := by
  rcases isBreak_iff.1 h with rfl | rfl | rfl | rfl | rfl
  · decide
  · decide
  -- The breaks beyond ASCII are looked up in the ranges, which a list evaluates faster than an array.
  all_goals
    rw [isHidden_eq_any_toList (by decide)]
    decide +kernel

theorem isBreak_char (apostrophe : Bool) (c : Char) : ∀ d ∈ char apostrophe c, isBreak d = false := by
  unfold char
  iterate 7
    split
    · exact (forall_isBreak_iff _).2 rfl
  split
  case isTrue =>
    simp only [List.forall_mem_append]
    exact ⟨⟨(forall_isBreak_iff _).2 rfl, isBreak_hex _⟩, (forall_isBreak_iff _).2 rfl⟩
  case isFalse hshown =>
    have hnot : isBreak c = false := Bool.eq_false_iff.2 fun h => hshown (isHidden_of_isBreak h)
    simpa using hnot

theorem oneLine_ofString (s : String) : OneLine (ofString s) := by
  rw [ofString, oneLine_ofList, List.forall_mem_append, List.forall_mem_append]
  refine ⟨⟨(forall_isBreak_iff _).2 rfl, fun d hd => ?_⟩, (forall_isBreak_iff _).2 rfl⟩
  obtain ⟨c, -, hc⟩ := List.mem_flatMap.1 hd
  exact isBreak_char false c d hc

end Quoted

end AgentHost.Text
