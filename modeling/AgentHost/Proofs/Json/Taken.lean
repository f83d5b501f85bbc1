import AgentHost.Json.Value
import Mathlib.Data.List.DropRight
/-!
# What the plain reader has taken

`Taken` says how a value stood in a text, for each kind of value, once the plain
reader has taken it.
-/

namespace AgentHost.Json.Value

/-! ## Escapes -/

/-- An escape is a letter, a code, or the codes of two halves. -/
theorem parseEscape_cases {cs rest : List Char} {ch : Char} (h : parseEscape cs = some (ch, rest)) :
    (∃ letter, cs = letter :: rest ∧ letter ≠ 'u' ∧ (shortEscape? letter).isSome) ∨
      (∃ digits n, cs = 'u' :: digits ∧ hexFour? digits = some (n, rest)) ∨
      ∃ digits n more m, cs = 'u' :: digits ∧ hexFour? digits = some (n, '\\' :: 'u' :: more) ∧
        hexFour? more = some (m, rest) := by
  unfold parseEscape at h
  split at h
  case h_1 digits =>
    split at h
    case h_2 => cases h
    case h_1 n behind hhex =>
      right
      split at h
      · split at h
        case h_2 => cases h
        case h_1 more =>
          split at h
          case h_2 => cases h
          case h_1 m _ hmore =>
            split at h
            · obtain ⟨-, rfl⟩ := Prod.mk.inj (Option.some.inj h)
              exact .inr ⟨digits, n, more, m, rfl, hhex, hmore⟩
            · cases h
      · split at h
        · cases h
        · cases h
          exact .inl ⟨digits, n, rfl, hhex⟩
  case h_2 letter behind hcode =>
    obtain ⟨e, hshort, h⟩ := Option.map_eq_some_iff.1 h
    cases h
    exact .inl ⟨letter, rfl, hcode, by rw [hshort]; rfl⟩
  case h_3 => cases h

/-! ## Values -/

/-- A value that was taken from the start of a text, and what it left. `fuel` is
what its items and members were read with. -/
inductive Taken (fuel : Nat) : List Char → Value → List Char → Prop where
  | null (rest : List Char) : Taken fuel ('n' :: 'u' :: 'l' :: 'l' :: rest) .null rest
  | yes (rest : List Char) : Taken fuel ('t' :: 'r' :: 'u' :: 'e' :: rest) (.bool true) rest
  | no (rest : List Char) : Taken fuel ('f' :: 'a' :: 'l' :: 's' :: 'e' :: rest) (.bool false) rest
  | string {cs text rest : List Char} (h : parseString (cs.length + 1) cs = some (text, rest)) :
    Taken fuel ('"' :: cs) (.string text) rest
  | emptyArray {cs rest : List Char} (h : skipSpace cs = ']' :: rest) : Taken fuel ('[' :: cs) (.array []) rest
  | array {cs rest : List Char} {vs : List Value} (hopen : ∀ more, skipSpace cs ≠ ']' :: more)
    (h : parseItems fuel cs = some (vs, rest)) : Taken fuel ('[' :: cs) (.array vs) rest
  | emptyObject {cs rest : List Char} (h : skipSpace cs = '}' :: rest) : Taken fuel ('{' :: cs) (.object []) rest
  | object {cs rest : List Char} {ms : List (List Char × Value)} (hopen : ∀ more, skipSpace cs ≠ '}' :: more)
    (h : parseMembers fuel cs = some (ms, rest)) : Taken fuel ('{' :: cs) (.object ms) rest
  | number {cs literal rest : List Char} (h : parseNumber cs = some (literal, rest)) :
    Taken fuel cs (.number literal) rest

theorem taken_of_parseValue {fuel : Nat} {cs rest : List Char} {v : Value}
    (h : parseValue (fuel + 1) cs = some (v, rest)) : Taken fuel (skipSpace cs) v rest := by
  unfold parseValue at h
  generalize skipSpace cs = start at h ⊢
  split at h
  case h_1 => cases h; exact .null _
  case h_2 => cases h; exact .yes _
  case h_3 => cases h; exact .no _
  case h_4 =>
    obtain ⟨p, hstring, h⟩ := Option.map_eq_some_iff.1 h
    cases h
    exact .string hstring
  case h_5 =>
    split at h
    case h_1 hclose => cases h; exact .emptyArray hclose
    case h_2 hopen =>
      obtain ⟨p, hitems, h⟩ := Option.map_eq_some_iff.1 h
      cases h
      exact .array hopen hitems
  case h_6 =>
    split at h
    case h_1 hclose => cases h; exact .emptyObject hclose
    case h_2 hopen =>
      obtain ⟨p, hmembers, h⟩ := Option.map_eq_some_iff.1 h
      cases h
      exact .object hopen hmembers
  case h_7 =>
    obtain ⟨p, hnumber, h⟩ := Option.map_eq_some_iff.1 h
    cases h
    exact .number hnumber

theorem taken_of_some {fuel : Nat} {cs rest : List Char} {v : Value} (h : parseValue fuel cs = some (v, rest)) :
    ∃ fuel, Taken fuel (skipSpace cs) v rest := by
  cases fuel with
  | zero => cases h
  | succ fuel => exact ⟨fuel, taken_of_parseValue h⟩

/-- The items of an array: a value, and then a comma and more of them or the end. -/
theorem parseItems_cases {fuel : Nat} {cs rest : List Char} {vs : List Value}
    (h : parseItems (fuel + 1) cs = some (vs, rest)) :
    ∃ v behind, parseValue fuel cs = some (v, behind) ∧
      ((∃ more vs', skipSpace behind = ',' :: more ∧ parseItems fuel more = some (vs', rest) ∧ vs = v :: vs') ∨
        (skipSpace behind = ']' :: rest ∧ vs = [v])) := by
  unfold parseItems at h
  split at h
  case h_1 => cases h
  case h_2 v behind hvalue =>
    refine ⟨v, behind, hvalue, ?_⟩
    split at h
    case h_1 more hcomma =>
      obtain ⟨p, hitems, h⟩ := Option.map_eq_some_iff.1 h
      cases h
      exact .inl ⟨more, p.1, hcomma, hitems, rfl⟩
    case h_2 more hclose =>
      cases h
      exact .inr ⟨hclose, rfl⟩
    case h_3 => cases h

/-- The members of an object: a name, a colon and a value, and then a comma and
more of them or the end. -/
theorem parseMembers_cases {fuel : Nat} {cs rest : List Char} {ms : List (List Char × Value)}
    (h : parseMembers (fuel + 1) cs = some (ms, rest)) :
    ∃ name v behindQuote behindName behindColon behind,
      skipSpace cs = '"' :: behindQuote ∧
      parseString (behindQuote.length + 1) behindQuote = some (name, behindName) ∧
      skipSpace behindName = ':' :: behindColon ∧ parseValue fuel behindColon = some (v, behind) ∧
      ((∃ more ms', skipSpace behind = ',' :: more ∧ parseMembers fuel more = some (ms', rest) ∧
          ms = (name, v) :: ms') ∨
        (skipSpace behind = '}' :: rest ∧ ms = [(name, v)])) := by
  unfold parseMembers at h
  split at h
  case h_2 => cases h
  case h_1 behindQuote hquote =>
    split at h
    case h_1 => cases h
    case h_2 name behindName hname =>
      split at h
      case h_2 => cases h
      case h_1 behindColon hcolon =>
        split at h
        case h_1 => cases h
        case h_2 v behind hvalue =>
          refine ⟨name, v, behindQuote, behindName, behindColon, behind, hquote, hname, hcolon, hvalue, ?_⟩
          split at h
          case h_1 more hcomma =>
            obtain ⟨p, hmembers, h⟩ := Option.map_eq_some_iff.1 h
            cases h
            exact .inl ⟨more, p.1, hcomma, hmembers, rfl⟩
          case h_2 more hclose =>
            cases h
            exact .inr ⟨hclose, rfl⟩
          case h_3 => cases h

/-- A member starts with a quotation mark. -/
theorem skipSpace_quote {fuel : Nat} {cs : List Char} {p : List (List Char × Value) × List Char}
    (h : parseMembers fuel cs = some p) : ∃ rest, skipSpace cs = '"' :: rest := by
  cases fuel with
  | zero => cases h
  | succ fuel =>
    obtain ⟨_, _, behindQuote, _, _, _, hquote, -⟩ := parseMembers_cases h
    exact ⟨behindQuote, hquote⟩

/-! ## Whitespace in front -/

theorem parseValue_skipSpace (fuel : Nat) (cs : List Char) : parseValue fuel (skipSpace cs) = parseValue fuel cs := by
  cases fuel with
  | zero => rfl
  | succ fuel =>
    rw [parseValue, parseValue, skipSpace, skipSpace, List.dropWhile_idempotent]

theorem parseItems_skipSpace (fuel : Nat) (cs : List Char) : parseItems fuel (skipSpace cs) = parseItems fuel cs := by
  cases fuel with
  | zero => rfl
  | succ fuel => rw [parseItems, parseItems, parseValue_skipSpace]

theorem parseMembers_skipSpace (fuel : Nat) (cs : List Char) :
    parseMembers fuel (skipSpace cs) = parseMembers fuel cs := by
  cases fuel with
  | zero => rfl
  | succ fuel => rw [parseMembers, parseMembers, skipSpace, skipSpace, List.dropWhile_idempotent]

end AgentHost.Json.Value
