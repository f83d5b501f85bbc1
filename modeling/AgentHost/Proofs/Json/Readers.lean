import AgentHost.Proofs.Json.Skips
/-!
# Readers of values

A reader reads a value where, wherever the plain reader takes that value from a
text, the reader makes of it what the value says, and leaves the same text behind
it. Readers of records are made of readers of their members.
-/

namespace AgentHost.Json

variable {α β : Type}

/-- Where the value stands the reader makes `x` of it, or refuses it. -/
def Reads (read : Cursor → Except DecodeError (α × Cursor)) (v : Value) (x : Option α) : Prop :=
  ∀ ⦃fuel c rest⦄, Value.parseValue fuel c.rest = some (v, rest) → Closed rest →
    bare (read c) = x.map fun x => (x, rest)

namespace Value

/-- The text of a string. -/
def text? : Value → Option String
  | .string cs => some (String.ofList cs)
  | _ => none

/-- The text of a string, or nothing for `null`. -/
def optionalText? : Value → Option (Option String)
  | .null => some none
  | .string cs => some (some (String.ofList cs))
  | _ => none

/-- The word of a number. -/
def word? : Value → Option UInt16
  | .number literal => wordOf? literal
  | _ => none

@[simp] theorem text?_string (s : String) : (string s.toList).text? = some s := by simp [text?]

@[simp] theorem optionalText?_string (s : String) : (string s.toList).optionalText? = some (some s) := by
  simp [optionalText?]

/-- A word is what its digits denote. -/
@[simp] theorem word?_integerText (n : UInt16) : (number (integerText n.toNat)).word? = some n := by
  have htext : integerText n.toNat = Number.Layout.digitChars (Number.Shortest.digitsOf n.toNat) := by
    simp [integerText]
  rw [word?, htext, wordOf?, Number.Numeral.ofDigits?_digitsOf, Option.bind_some, if_pos n.toNat_lt,
    UInt16.ofNat_toNat]

/-- Only a string starts with a quotation mark. -/
theorem Taken.ne_quote {fuel : Nat} {cs rest : List Char} {v : Value} (h : Taken fuel cs v rest)
    (htext : v.text? = none) (more : List Char) : cs ≠ '"' :: more := by
  intro hquote
  cases h with
  | string => cases htext
  | number hnumber =>
    obtain ⟨c, cs, rfl, hhead⟩ := head_of_parseNumber hnumber
    rw [(List.cons.inj hquote).1] at hhead
    rcases hhead with h | h <;> cases h
  | _ => cases hquote

end Value

namespace Decode

/-- A value that is of the wrong type is refused, whatever it is. -/
theorem bare_wrongType (expected : String) (c : Cursor) :
    bare (wrongType expected c : Except DecodeError (α × Cursor)) = none := by
  have hrefuse : ∀ {β : Type} (r : Except DecodeError β) (k : β → Except DecodeError (α × Cursor)),
      (∀ b, bare (k b) = none) → bare (r >>= k) = none := by
    intro β r k hk
    cases r with
    | error e => rfl
    | ok b => exact hk b
  unfold wrongType
  simp only
  split
  case h_1 => rfl
  case h_7 => rfl
  case h_8 => rfl
  case h_9 =>
    split
    · exact hrefuse _ _ fun _ => rfl
    · rfl
  all_goals exact hrefuse _ _ fun _ => rfl

theorem text_of_quote {c : Cursor} {cs : List Char} (h : Value.skipSpace c.rest = '"' :: cs) :
    bare (text c) = (Value.parseString (cs.length + 1) cs).map fun p => (String.ofList p.1, p.2) := by
  have hstart : c.skipSpace.rest = '"' :: cs := (Cursor.rest_skipSpace c).trans h
  have hstring := Token.bare_readString (cs.length + 1) c.skipSpace.next
  rw [Cursor.rest_next hstart] at hstring
  simp only [text, hstart, ← hstring]
  cases Token.readString (cs.length + 1) c.skipSpace.next <;> rfl

theorem text_of_ne_quote {c : Cursor} (h : ∀ cs, Value.skipSpace c.rest ≠ '"' :: cs) : bare (text c) = none := by
  unfold text
  simp only
  split
  case h_1 => rfl
  case h_2 cs hquote => exact absurd ((Cursor.rest_skipSpace c).symm.trans hquote) (h cs)
  case h_3 => exact bare_wrongType _ _

theorem reads_text (v : Value) : Reads text v v.text? := by
  intro fuel c rest h _
  obtain ⟨_, htaken⟩ := Value.taken_of_some h
  cases htext : v.text? with
  | none => rw [text_of_ne_quote (htaken.ne_quote htext)]; rfl
  | some s =>
    generalize hstart : Value.skipSpace c.rest = start at htaken
    cases htaken with
    | string hstring =>
      cases htext
      rw [text_of_quote hstart, hstring]
      rfl
    | _ => cases htext

theorem reads_optionalText (v : Value) : Reads optionalText v v.optionalText? := by
  intro fuel c rest h hrest
  have hstart : c.skipSpace.rest = Value.skipSpace c.rest := Cursor.rest_skipSpace c
  obtain ⟨_, htaken⟩ := Value.taken_of_some h
  unfold optionalText
  simp only
  split
  case h_1 more hnull =>
    rw [← hstart, hnull] at htaken
    cases htaken with
    | null =>
      have hword : left (Token.readWord c.skipSpace.next "ull".toList) = some rest :=
        Token.left_readWord (Cursor.rest_next hnull)
      rw [bare_bind_left _ (g := fun rest => some (none, rest)) fun _ => rfl, hword]
      rfl
    | number hnumber =>
      -- No number starts with the letter of `null`.
      obtain ⟨_, _, hcons, hhead⟩ := Value.head_of_parseNumber hnumber
      rw [← (List.cons.inj hcons).1] at hhead
      rcases hhead with h | h <;> cases h
  case h_2 hnull =>
    have htext := reads_text v (c := c.skipSpace) (by rw [hstart, Value.parseValue_skipSpace]; exact h) hrest
    rw [bare_bind _ (g := fun p => some (some p.1, p.2)) fun _ _ => rfl, htext]
    cases v with
    | null =>
      generalize Value.skipSpace c.rest = start at htaken hstart
      cases htaken
      exact absurd hstart (hnull _)
    | _ => rfl

theorem word_of_other {c : Cursor} {ch : Char} {more : List Char} (h : Value.skipSpace c.rest = ch :: more)
    (hminus : ch ≠ '-') (hdigit : ch.isDigit = false) : bare (word c) = none := by
  have hstart : c.skipSpace.rest = ch :: more := (Cursor.rest_skipSpace c).trans h
  unfold word
  simp only
  split
  case h_1 => rfl
  case h_2 hcons => exact absurd (List.cons.inj (hstart.symm.trans hcons)).1 hminus
  case h_3 hcons =>
    rw [← (List.cons.inj (hstart.symm.trans hcons)).1, hdigit]
    exact bare_wrongType _ _

theorem reads_word (v : Value) : Reads word v v.word? := by
  intro fuel c rest h hrest
  obtain ⟨_, htaken⟩ := Value.taken_of_some h
  generalize hstart : Value.skipSpace c.rest = start at htaken
  cases htaken with
  | number hnumber => exact bare_word (hstart ▸ hnumber) hrest
  | _ => exact word_of_other hstart (by decide) rfl

end Decode

end AgentHost.Json
