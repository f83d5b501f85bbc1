import AgentHost.Proofs.Json.Numbers
import AgentHost.Proofs.Json.Quoted
import AgentHost.Proofs.Json.Taken
import Mathlib.Data.List.Forall2
/-!
# Texts that spell a value

A text spells a value where the plain reader takes just that text for it, wherever
it stands. Words, integers and quoted texts do; arrays and objects do that are put
together from texts that do.
-/

namespace AgentHost.Json

/-- The text is read as the value, and what stands behind it is left. -/
def Spells (text : List Char) (v : Value) : Prop :=
  ∀ ⦃fuel rest⦄, text.length ≤ fuel → Closed rest → Value.parseValue fuel (text ++ rest) = some (v, rest)

/-- The text is read as a member of an object: its name between quotes, a colon,
and a text that spells its value. -/
def SpellsMember (text : List Char) (m : List Char × Value) : Prop :=
  ∃ value, text = quote m.1 ++ ':' :: value ∧ Spells value m.2

namespace Value

theorem skipSpace_cons {c : Char} (h : isSpace c = false) (rest : List Char) : skipSpace (c :: rest) = c :: rest := by
  simp [skipSpace, h]

/-! ## How a value starts -/

theorem parseValue_number (fuel : Nat) {c : Char} (cs : List Char) (h : c = '-' ∨ c.isDigit = true) :
    parseValue (fuel + 1) (c :: cs) = (parseNumber (c :: cs)).map fun (literal, rest) => (.number literal, rest) := by
  have hspace : isSpace c = false := by
    rcases h with rfl | h
    · rfl
    · simp only [isSpace, Bool.or_eq_false_iff, beq_eq_false_iff_ne]
      refine ⟨⟨⟨?_, ?_⟩, ?_⟩, ?_⟩ <;> rintro rfl <;> cases h
  unfold parseValue
  rw [skipSpace_cons hspace]
  split
  case h_7 => rfl
  -- No other value starts with a digit or a minus sign.
  all_goals
    rename_i hcons
    obtain ⟨rfl, -⟩ := List.cons.inj hcons
    rcases h with h | h <;> cases h

/-- No value starts with a closing bracket. -/
theorem parseValue_close (fuel : Nat) {cs rest : List Char} (h : skipSpace cs = ']' :: rest) :
    parseValue fuel cs = none := by
  cases fuel with
  | zero => rfl
  | succ fuel =>
    unfold parseValue
    rw [h]
    rfl

theorem skipSpace_ne_close {fuel : Nat} {cs : List Char} {p : List Value × List Char}
    (h : parseItems fuel cs = some p) (rest : List Char) : skipSpace cs ≠ ']' :: rest := by
  intro hclose
  cases fuel with
  | zero => cases h
  | succ fuel =>
    rw [parseItems, parseValue_close fuel hclose] at h
    cases h

theorem parseValue_array {fuel : Nat} {cs rest : List Char} {vs : List Value}
    (h : parseItems fuel cs = some (vs, rest)) : parseValue (fuel + 1) ('[' :: cs) = some (.array vs, rest) := by
  unfold parseValue
  simp only [skipSpace_cons (show isSpace '[' = false from rfl)]
  split
  case h_1 hclose => exact absurd hclose (skipSpace_ne_close h _)
  case h_2 => rw [h]; rfl

theorem parseValue_object {fuel : Nat} {cs rest : List Char} {ms : List (List Char × Value)}
    (h : parseMembers fuel cs = some (ms, rest)) : parseValue (fuel + 1) ('{' :: cs) = some (.object ms, rest) := by
  obtain ⟨more, hquote⟩ := skipSpace_quote h
  unfold parseValue
  simp only [skipSpace_cons (show isSpace '{' = false from rfl), hquote, h]
  rfl

end Value

open Value

/-! ## Scalars -/

theorem spells_null : Spells "null".toList .null := by
  rintro (_ | fuel) rest hfuel -
  · cases hfuel
  · rfl

theorem spells_bool (b : Bool) : Spells (toString b).toList (.bool b) := by
  rintro (_ | fuel) rest hfuel -
  · cases b <;> cases hfuel
  · cases b <;> rfl

theorem spells_integer (n : Int) : Spells (integerText n) (.number (integerText n)) := by
  obtain ⟨c, more, hcons, hhead⟩ := integerText_eq_cons n
  rintro (_ | fuel) rest hfuel hrest
  · rw [hcons] at hfuel
    cases hfuel
  · have hnumber := parseNumber_integerText n hrest
    rw [hcons, List.cons_append] at hnumber ⊢
    rw [parseValue_number fuel _ hhead, hnumber]
    rfl

theorem parseString_quote (cs rest : List Char) :
    parseString ((cs.flatMap escape ++ '"' :: rest).length + 1) (cs.flatMap escape ++ '"' :: rest) =
      some (cs, rest) := by
  have := length_le_flatMap_escape cs
  refine parseString_quoted cs rest ?_
  simp only [List.length_append]
  omega

theorem quote_append (cs rest : List Char) : quote cs ++ rest = '"' :: (cs.flatMap escape ++ '"' :: rest) := by
  simp [quote]

theorem spells_quote (cs : List Char) : Spells (quote cs) (.string cs) := by
  rintro (_ | fuel) rest hfuel -
  · cases hfuel
  · rw [quote_append]
    show (parseString _ _).map _ = _
    rw [parseString_quote]
    rfl

/-! ## Arrays and objects -/

theorem separated_cons (part next : List Char) (parts : List (List Char)) (rest : List Char) :
    separated (part :: next :: parts) ++ rest = part ++ ',' :: (separated (next :: parts) ++ rest) := by
  simp [separated]

/-! An item is the last one, or a comma and more of them are behind it. -/

theorem parseItems_close {fuel : Nat} {cs behind : List Char} {v : Value}
    (h : parseValue fuel cs = some (v, ']' :: behind)) : parseItems (fuel + 1) cs = some ([v], behind) := by
  rw [parseItems]
  simp only [h, skipSpace_cons (show isSpace ']' = false from rfl)]

theorem parseItems_comma {fuel : Nat} {cs more behind : List Char} {v : Value} {vs : List Value}
    (h : parseValue fuel cs = some (v, ',' :: more)) (hmore : parseItems fuel more = some (vs, behind)) :
    parseItems (fuel + 1) cs = some (v :: vs, behind) := by
  rw [parseItems]
  simp only [h, skipSpace_cons (show isSpace ',' = false from rfl), hmore, Option.map_some]

theorem parseItems_separated {part : List Char} {parts : List (List Char)} {v : Value} {vs : List Value}
    (h : List.Forall₂ Spells (part :: parts) (v :: vs)) {fuel : Nat} {rest : List Char}
    (hfuel : (separated (part :: parts) ++ ']' :: rest).length ≤ fuel + rest.length) :
    parseItems fuel (separated (part :: parts) ++ ']' :: rest) = some (v :: vs, rest) := by
  induction parts generalizing part v vs fuel with
  | nil =>
    obtain ⟨hpart, hnil⟩ := List.forall₂_cons.1 h
    cases hnil
    simp only [separated, List.length_append, List.length_cons] at hfuel
    cases fuel with
    | zero => omega
    | succ fuel =>
      exact parseItems_close (hpart (by omega) (.bracket rest))
  | cons next parts ih =>
    obtain ⟨hpart, hmore⟩ := List.forall₂_cons.1 h
    rw [separated_cons] at hfuel ⊢
    simp only [List.length_append, List.length_cons] at hfuel
    cases fuel with
    | zero => omega
    | succ fuel =>
      cases hmore with
      | cons hnext hmore =>
        have htail : parseItems fuel (separated (next :: parts) ++ ']' :: rest) = some (_ :: _, rest) :=
          ih (.cons hnext hmore) (by
            simp only [List.length_append, List.length_cons]
            omega)
        exact parseItems_comma (hpart (by omega) (.comma _)) htail

/-- Texts that spell values spell an array of them. -/
theorem spells_array {parts : List (List Char)} {vs : List Value} (h : List.Forall₂ Spells parts vs) :
    Spells ('[' :: separated parts ++ [']']) (.array vs) := by
  rintro (_ | fuel) rest hfuel -
  · cases hfuel
  · cases h with
    | nil => rfl
    | cons hpart hmore =>
      simp only [List.length_append, List.length_cons, List.length_nil] at hfuel
      simp only [List.cons_append, List.append_assoc, List.nil_append]
      refine parseValue_array (parseItems_separated (.cons hpart hmore) ?_)
      simp only [List.length_append, List.length_cons]
      omega

/-! A member is the last one, or a comma and more of them are behind it. -/

theorem parseMembers_close {fuel : Nat} {name rest behind : List Char} {v : Value}
    (h : parseValue fuel rest = some (v, '}' :: behind)) :
    parseMembers (fuel + 1) (quote name ++ ':' :: rest) = some ([(name, v)], behind) := by
  rw [quote_append, parseMembers]
  simp only [skipSpace_cons (show isSpace '"' = false from rfl), parseString_quote,
    skipSpace_cons (show isSpace ':' = false from rfl), h, skipSpace_cons (show isSpace '}' = false from rfl)]

theorem parseMembers_comma {fuel : Nat} {name rest more behind : List Char} {v : Value}
    {ms : List (List Char × Value)} (h : parseValue fuel rest = some (v, ',' :: more))
    (hmore : parseMembers fuel more = some (ms, behind)) :
    parseMembers (fuel + 1) (quote name ++ ':' :: rest) = some ((name, v) :: ms, behind) := by
  rw [quote_append, parseMembers]
  simp only [skipSpace_cons (show isSpace '"' = false from rfl), parseString_quote,
    skipSpace_cons (show isSpace ':' = false from rfl), h, skipSpace_cons (show isSpace ',' = false from rfl),
    hmore, Option.map_some]

theorem parseMembers_separated {part : List Char} {parts : List (List Char)} {m : List Char × Value}
    {ms : List (List Char × Value)} (h : List.Forall₂ SpellsMember (part :: parts) (m :: ms)) {fuel : Nat}
    {rest : List Char} (hfuel : (separated (part :: parts) ++ '}' :: rest).length ≤ fuel + rest.length) :
    parseMembers fuel (separated (part :: parts) ++ '}' :: rest) = some (m :: ms, rest) := by
  induction parts generalizing part m ms fuel with
  | nil =>
    obtain ⟨⟨text, rfl, htext⟩, hnil⟩ := List.forall₂_cons.1 h
    cases hnil
    simp only [separated, List.append_assoc, List.cons_append, List.length_append, List.length_cons] at hfuel ⊢
    cases fuel with
    | zero => omega
    | succ fuel =>
      exact parseMembers_close (htext (by omega) (.brace rest))
  | cons next parts ih =>
    obtain ⟨⟨text, rfl, htext⟩, hmore⟩ := List.forall₂_cons.1 h
    rw [separated_cons] at hfuel ⊢
    simp only [List.append_assoc, List.cons_append, List.length_append, List.length_cons] at hfuel ⊢
    cases fuel with
    | zero => omega
    | succ fuel =>
      cases hmore with
      | cons hnext hmore =>
        have htail : parseMembers fuel (separated (next :: parts) ++ '}' :: rest) = some (_ :: _, rest) :=
          ih (.cons hnext hmore) (by
            simp only [List.length_append, List.length_cons]
            omega)
        exact parseMembers_comma (htext (by omega) (.comma _)) htail

/-- Texts that spell members spell an object of them. -/
theorem spells_object {parts : List (List Char)} {ms : List (List Char × Value)}
    (h : List.Forall₂ SpellsMember parts ms) : Spells ('{' :: separated parts ++ ['}']) (.object ms) := by
  rintro (_ | fuel) rest hfuel -
  · cases hfuel
  · cases h with
    | nil => rfl
    | cons hpart hmore =>
      simp only [List.length_append, List.length_cons, List.length_nil] at hfuel
      simp only [List.cons_append, List.append_assoc, List.nil_append]
      refine parseValue_object (parseMembers_separated (.cons hpart hmore) ?_)
      simp only [List.length_append, List.length_cons]
      omega

/-! ## Whole texts -/

/-- A text that spells a value is read as that value. -/
theorem Spells.parse {text : List Char} {v : Value} (h : Spells text v) : Value.parse text = some v := by
  have hread : parseValue (text.length + 1) (text ++ []) = some (v, []) := h (Nat.le_succ text.length) trivial
  rw [List.append_nil] at hread
  rw [Value.parse, hread]
  rfl

end AgentHost.Json
