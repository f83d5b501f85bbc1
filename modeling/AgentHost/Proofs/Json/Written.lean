import AgentHost.Proofs.Except
import AgentHost.Proofs.Json.Spelling
/-!
# What a payload is written as

A payload stands for a plain tree: its fields and entries are the members of an
object, whatever wrapping it has does not show. Where a payload without
floating-point numbers can be written at all, its text spells that tree.
-/

namespace AgentHost.Json

namespace Payload

/-- The name that a key of a map is written as. -/
def keyText : Payload → List Char
  | .text s => s.toList
  | .bool b => (toString b).toList
  | .integer n => integerText n
  | .real x => x.text
  | .wrapped inner => inner.keyText
  | .null | .bytes _ | .list _ | .map _ | .record _ | .failing _ => []

/-- A byte as a number. -/
def plainByte (b : UInt8) : Value := .number (integerText b.toNat)

mutual

/-- The tree that a payload stands for. -/
def plain : Payload → Value
  | .null => .null
  | .bool b => .bool b
  | .integer n => .number (integerText n)
  | .real x => if x.isFinite then .number x.text else .null
  | .text s => .string s.toList
  | .bytes bs => .array (bs.map plainByte)
  | .wrapped inner => inner.plain
  | .list items => .array (plainItems items)
  | .map entries => .object (plainEntries entries)
  | .record fields => .object (plainFields fields)
  | .failing _ => .null

/-- The trees of the items of a list. -/
def plainItems : List Payload → List Value
  | [] => []
  | p :: rest => p.plain :: plainItems rest

/-- The members that the entries of a map are written as. -/
def plainEntries : List (Payload × Payload) → List (List Char × Value)
  | [] => []
  | (key, value) :: rest => (key.keyText, value.plain) :: plainEntries rest

/-- The members that the fields of a record are written as. -/
def plainFields : List (String × Payload) → List (List Char × Value)
  | [] => []
  | (name, value) :: rest => (name.toList, value.plain) :: plainFields rest

end

mutual

/-- No value in the payload is a floating-point number. -/
def isExact : Payload → Bool
  | .real _ => false
  | .wrapped inner => inner.isExact
  | .list items => exactItems items
  | .map entries => exactEntries entries
  | .record fields => exactFields fields
  | .null | .bool _ | .integer _ | .text _ | .bytes _ | .failing _ => true

/-- No value in the items is a floating-point number. -/
def exactItems : List Payload → Bool
  | [] => true
  | p :: rest => p.isExact && exactItems rest

/-- No value in the entries is a floating-point number. -/
def exactEntries : List (Payload × Payload) → Bool
  | [] => true
  | (_, value) :: rest => value.isExact && exactEntries rest

/-- No value in the fields is a floating-point number. -/
def exactFields : List (String × Payload) → Bool
  | [] => true
  | (_, value) :: rest => value.isExact && exactFields rest

end

/-! ## Keys and lists of bytes -/

/-- A key that can be written is written between quotes. -/
theorem encodeKey_eq_quote {key : Payload} {name : List Char} (h : key.encodeKey = .ok name) :
    name = quote key.keyText := by
  induction key using encodeKey.induct generalizing name with
  | case1 s => cases h; rfl
  | case2 b => cases h; rfl
  | case3 n => cases h; rfl
  | case4 x hfinite =>
    rw [encodeKey, if_pos hfinite] at h
    cases h
    rfl
  | case5 x hfinite =>
    rw [encodeKey, if_neg hfinite] at h
    cases h
  | case6 inner ih =>
    rw [encodeKey] at h
    exact ih h
  | _ => cases h

theorem spells_bytes (bs : List UInt8) :
    List.Forall₂ Spells (bs.map fun b => integerText b.toNat) (bs.map plainByte) := by
  induction bs with
  | nil => exact .nil
  | cons b bs ih => exact .cons (spells_integer _) ih

/-! ## Payloads -/

mutual

/-- What a payload is written as spells its tree. -/
theorem spells_encode : (p : Payload) → p.isExact = true → ∀ {text}, p.encode = .ok text → Spells text p.plain
  | .null, _, _, h => by
    cases h
    exact spells_null
  | .bool b, _, _, h => by
    cases h
    exact spells_bool b
  | .integer n, _, _, h => by
    cases h
    exact spells_integer n
  | .text s, _, _, h => by
    cases h
    exact spells_quote s.toList
  | .bytes bs, _, _, h => by
    cases h
    exact spells_array (spells_bytes bs)
  | .wrapped inner, hexact, _, h => by
    rw [encode] at h
    exact spells_encode inner hexact h
  | .list items, hexact, _, h => by
    rw [encode] at h
    obtain ⟨parts, hparts, rfl⟩ := ok_of_map h
    exact spells_array (spells_encodeItems items hexact hparts)
  | .map entries, hexact, _, h => by
    rw [encode] at h
    obtain ⟨parts, hparts, rfl⟩ := ok_of_map h
    exact spells_object (spells_encodeEntries entries hexact hparts)
  | .record fields, hexact, _, h => by
    rw [encode] at h
    obtain ⟨parts, hparts, rfl⟩ := ok_of_map h
    exact spells_object (spells_encodeFields fields hexact hparts)
  | .failing _, _, _, h => by cases h

theorem spells_encodeItems : (items : List Payload) → exactItems items = true →
    ∀ {parts}, encodeItems items = .ok parts → List.Forall₂ Spells parts (plainItems items)
  | [], _, _, h => by
    cases h
    exact .nil
  | p :: rest, hexact, _, h => by
    rw [exactItems, Bool.and_eq_true] at hexact
    rw [encodeItems] at h
    obtain ⟨part, hpart, h⟩ := ok_of_bind h
    obtain ⟨parts, hparts, h⟩ := ok_of_bind h
    cases h
    exact .cons (spells_encode p hexact.1 hpart) (spells_encodeItems rest hexact.2 hparts)

theorem spells_encodeEntries : (entries : List (Payload × Payload)) → exactEntries entries = true →
    ∀ {parts}, encodeEntries entries = .ok parts → List.Forall₂ SpellsMember parts (plainEntries entries)
  | [], _, _, h => by
    cases h
    exact .nil
  | (key, value) :: rest, hexact, _, h => by
    rw [exactEntries, Bool.and_eq_true] at hexact
    rw [encodeEntries] at h
    obtain ⟨name, hname, h⟩ := ok_of_bind h
    obtain ⟨part, hpart, h⟩ := ok_of_bind h
    obtain ⟨parts, hparts, h⟩ := ok_of_bind h
    cases h
    refine .cons ⟨part, ?_, spells_encode value hexact.1 hpart⟩ (spells_encodeEntries rest hexact.2 hparts)
    rw [encodeKey_eq_quote hname]

theorem spells_encodeFields : (fields : List (String × Payload)) → exactFields fields = true →
    ∀ {parts}, encodeFields fields = .ok parts → List.Forall₂ SpellsMember parts (plainFields fields)
  | [], _, _, h => by
    cases h
    exact .nil
  | (name, value) :: rest, hexact, _, h => by
    rw [exactFields, Bool.and_eq_true] at hexact
    rw [encodeFields] at h
    obtain ⟨part, hpart, h⟩ := ok_of_bind h
    obtain ⟨parts, hparts, h⟩ := ok_of_bind h
    cases h
    exact .cons ⟨part, rfl, spells_encode value hexact.1 hpart⟩ (spells_encodeFields rest hexact.2 hparts)

end

/-- What is written is one JSON text, and is read as the tree of the payload. -/
theorem parse_encode {p : Payload} (hexact : p.isExact = true) {text : List Char} (h : p.encode = .ok text) :
    Value.parse text = some p.plain :=
  (spells_encode p hexact h).parse

end Payload

end AgentHost.Json
