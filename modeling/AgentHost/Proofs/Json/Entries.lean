import AgentHost.Proofs.Json.Members
import AgentHost.Proofs.Yaml.Numerals
import Mathlib.Data.List.Forall2
/-!
# Kinds of members

What the members of records can be: a text, a text or nothing, a word of 16 bits, or
a list of records. Each says what its values are without any reader, and is shown to
be the part of the record that the reader makes.
-/

namespace AgentHost.Json

open Yaml.Scalar (Digits ofDigits?_iff)

/-! ## What readers make -/

theorem mapM_eq_some_iff {α β : Type} {f : α → Option β} {xs : List α} {ys : List β} :
    xs.mapM f = some ys ↔ List.Forall₂ (fun x y => f x = some y) xs ys := by
  induction xs generalizing ys with
  | nil => cases ys <;> simp
  | cons x xs ih =>
    rw [List.mapM_cons]
    cases hx : f x with
    | none => cases ys <;> simp [hx]
    | some y =>
      cases hxs : xs.mapM f with
      | none => cases ys <;> simp [← ih, hxs]
      | some ys' => cases ys <;> simp [← ih, hx, hxs]

namespace Value

theorem text?_eq_some_iff {v : Value} {s : String} : v.text? = some s ↔ v = .string s.toList := by
  constructor
  · intro h
    cases v with
    | string cs => rw [← Option.some.inj h, String.toList_ofList]
    | _ => cases h
  · rintro rfl
    exact text?_string s

theorem optionalText?_eq_some_iff {v : Value} {o : Option String} :
    v.optionalText? = some o ↔ v = o.elim .null fun s => .string s.toList := by
  constructor
  · intro h
    cases v with
    | null => rw [← Option.some.inj h, Option.elim_none]
    | string cs => rw [← Option.some.inj h, Option.elim_some, String.toList_ofList]
    | _ => cases h
  · rintro rfl
    cases o with
    | none => rfl
    | some s => exact optionalText?_string s

theorem word?_eq_some_iff {v : Value} {n : UInt16} :
    v.word? = some n ↔ ∃ literal, v = .number literal ∧ Digits 10 literal n.toNat := by
  constructor
  · intro h
    cases v with
    | number literal =>
      obtain ⟨k, hdigits, hword⟩ := Option.bind_eq_some_iff.1 h
      split at hword
      case isTrue hrange =>
        refine ⟨literal, rfl, (ofDigits?_iff (by decide)).1 ?_⟩
        rw [hdigits, ← Option.some.inj hword, UInt16.toNat_ofNat_of_lt' hrange]
      case isFalse => cases hword
    | _ => cases h
  · rintro ⟨literal, rfl, hdigits⟩
    rw [word?, wordOf?, (ofDigits?_iff (by decide)).2 hdigits, Option.bind_some, if_pos n.toNat_lt, UInt16.ofNat_toNat]

theorem listOf?_eq_some_iff {α : Type} {make : Value → Option α} {v : Value} {xs : List α} :
    v.listOf? make = some xs ↔ ∃ vs, v = .array vs ∧ List.Forall₂ (fun w x => make w = some x) vs xs := by
  constructor
  · intro h
    cases v with
    | array vs => exact ⟨vs, rfl, mapM_eq_some_iff.1 h⟩
    | _ => cases h
  · rintro ⟨vs, rfl, hitems⟩
    exact mapM_eq_some_iff.2 hitems

/-- A list is made where something is made of every item. -/
theorem exists_listOf?_iff {α : Type} {make : Value → Option α} {v : Value} :
    (∃ xs, v.listOf? make = some xs) ↔ ∃ vs, v = .array vs ∧ ∀ w ∈ vs, ∃ x, make w = some x := by
  simp only [listOf?_eq_some_iff]
  constructor
  · rintro ⟨xs, vs, rfl, hitems⟩
    refine ⟨vs, rfl, ?_⟩
    induction hitems with
    | nil => intro w hw; cases hw
    | cons hitem _ ih => exact List.forall_mem_cons.2 ⟨⟨_, hitem⟩, ih⟩
  · rintro ⟨vs, rfl, hitems⟩
    suffices ∃ xs, List.Forall₂ (fun w x => make w = some x) vs xs from this.imp fun xs hxs => ⟨vs, rfl, hxs⟩
    induction vs with
    | nil => exact ⟨[], .nil⟩
    | cons w vs ih =>
      obtain ⟨⟨x, hx⟩, hmore⟩ := List.forall_mem_cons.1 hitems
      obtain ⟨xs, hxs⟩ := ih hmore
      exact ⟨x :: xs, .cons hx hxs⟩

end Value

/-! ## Members -/

namespace Entry

open Decode (Shape)

variable {σ α : Type}

/-- A member that is a text. -/
def text (name : String) (get : σ → String) : Entry σ where
  name := name
  required := true
  kind v := ∃ cs, v = .string cs
  tells o x := o = some (.string (get x).toList)

/-- A member that is a text or `null`. To leave it out is the same as `null`: there is
no text then. -/
def optionalText (name : String) (get : σ → Option String) : Entry σ where
  name := name
  required := false
  kind v := v = .null ∨ ∃ cs, v = .string cs
  tells o x := o.getD .null = (get x).elim .null fun s => .string s.toList

/-- A member that is a number from 0 to 65535, written as digits and nothing else. -/
def word (name : String) (get : σ → UInt16) : Entry σ where
  name := name
  required := true
  kind v := ∃ literal n, v = .number literal ∧ Digits 10 literal n ∧ n ≤ 65535
  tells o x := ∃ literal, o = some (.number literal) ∧ Digits 10 literal (get x).toNat

/-- A member that is an array of records. -/
def records (name : String) (l : Layout α) (get : σ → List α) : Entry σ where
  name := name
  required := true
  kind v := ∃ vs, v = .array vs ∧ ∀ w ∈ vs, ∃ ms, w.membersIn l.names = some ms ∧ l.Accepts ms
  tells o x := ∃ vs, o = some (.array vs) ∧
    List.Forall₂ (fun w a => ∃ ms, w.membersIn l.names = some ms ∧ l.Told ms a) vs (get x)

theorem text_isPart (name : String) (get : σ → String) : (text name get).IsPart Value.text? none get where
  required := rfl
  kind v := by
    simp only [Value.text?_eq_some_iff]
    exact ⟨fun ⟨cs, h⟩ => ⟨.ofList cs, by rw [h, String.toList_ofList]⟩, fun ⟨s, h⟩ => ⟨s.toList, h⟩⟩
  value v x := Option.some_inj.trans Value.text?_eq_some_iff.symm
  none x := iff_of_false (by simp [text]) (by simp)

theorem optionalText_isPart (name : String) (get : σ → Option String) :
    (optionalText name get).IsPart Value.optionalText? (some none) get where
  required := rfl
  kind v := by
    simp only [Value.optionalText?_eq_some_iff, optionalText]
    constructor
    · rintro (rfl | ⟨cs, rfl⟩)
      · exact ⟨none, rfl⟩
      · exact ⟨some (.ofList cs), by rw [Option.elim_some, String.toList_ofList]⟩
    · rintro ⟨_ | s, rfl⟩
      · exact .inl rfl
      · exact .inr ⟨s.toList, rfl⟩
  value v x := Value.optionalText?_eq_some_iff.symm
  none x := by
    simp only [optionalText, Option.getD_none, Option.some_inj]
    cases get x with
    | none => exact iff_of_true rfl rfl
    | some s => exact iff_of_false (by simp) (by simp)

theorem word_isPart (name : String) (get : σ → UInt16) : (word name get).IsPart Value.word? none get where
  required := rfl
  kind v := by
    simp only [Value.word?_eq_some_iff, word]
    constructor
    · rintro ⟨literal, n, rfl, hdigits, hrange⟩
      refine ⟨.ofNat n, literal, rfl, ?_⟩
      rwa [UInt16.toNat_ofNat_of_lt' (Nat.lt_succ_of_le hrange)]
    · rintro ⟨n, literal, rfl, hdigits⟩
      exact ⟨literal, n.toNat, rfl, hdigits, Nat.le_of_lt_succ n.toNat_lt⟩
  value v x := by
    rw [Value.word?_eq_some_iff]
    exact exists_congr fun literal => and_congr_left' Option.some_inj
  none x := iff_of_false (by simp [word]) (by simp)

theorem records_isPart {l : Layout α} {s : Shape α} {put : String → α → Value → Option α} (h : l.Fits s put)
    (name : String) (get : σ → List α) :
    (records name l get).IsPart (Value.listOf? (s.ofValue put)) none get where
  required := rfl
  kind v := by
    simp only [Value.exists_listOf?_iff, records, h.ofValue_iff]
    refine exists_congr fun vs => and_congr_right fun _ => forall₂_congr fun w _ => ?_
    rw [exists_comm]
    simp only [exists_and_left, h.exists_told_iff]
  value v x := by
    simp only [Value.listOf?_eq_some_iff, records, h.ofValue_iff, Option.some_inj]
  none x := iff_of_false (by simp [records]) (by simp)

end Entry

end AgentHost.Json
