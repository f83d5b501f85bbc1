import AgentHost.Proofs.Json.Records
import AgentHost.Proofs.Json.Spelling
/-!
# Lists, and records from arrays

A list is read from an array, item by item. A record may stand as an array, too:
its members in their own order, where those at the end that are not required may
be left out. `reads_value` says what any value at all makes as a record.
-/

namespace AgentHost.Json

namespace Value

/-- The items of an array, each made into something. -/
def listOf? {α : Type} (make : Value → Option α) : Value → Option (List α)
  | .array vs => vs.mapM make
  | _ => none

theorem skipSpace_item {fuel : Nat} {cs : List Char} {p : List Value × List Char}
    (h : parseItems fuel cs = some p) : ∃ first more, skipSpace cs = first :: more ∧ first ≠ ']' := by
  cases hstart : skipSpace cs with
  | nil =>
    have := (length_parse _).2.1 ((parseItems_skipSpace fuel cs).trans h)
    rw [hstart] at this
    cases this
  | cons first more =>
    refine ⟨first, more, rfl, ?_⟩
    rintro rfl
    exact skipSpace_ne_close h more hstart

theorem ne_nil_of_parseItems {fuel : Nat} {cs : List Char} {vs : List Value} {rest : List Char}
    (h : parseItems fuel cs = some (vs, rest)) : vs ≠ [] := by
  cases fuel with
  | zero => cases h
  | succ fuel =>
    obtain ⟨v, _, -, ⟨_, vs', -, -, rfl⟩ | ⟨-, rfl⟩⟩ := parseItems_cases h <;> exact List.cons_ne_nil _ _

end Value

namespace Decode

variable {σ α : Type}

/-! ## Lists -/

section Items

variable {item : Cursor → Except DecodeError (α × Cursor)} {make : Value → Option α}
  (hitem : ∀ v, Reads item v (make v))

theorem items_first {c : Cursor} {first : Char} {more : List Char} (steps : Nat)
    (h : Value.skipSpace c.rest = first :: more) (hopen : first ≠ ']') :
    items item (steps + 1) true c = (do
      let (x, c) ← item c.skipSpace
      let (xs, c) ← items item steps false c
      .ok (x :: xs, c)) := by
  rw [← Cursor.rest_skipSpace] at h
  conv_lhs => rw [items]
  simp only [if_true]
  split
  case h_1 hnil => rw [hnil] at h; cases h
  case h_2 hclose => exact absurd (List.cons.inj (h.symm.trans hclose)).1 hopen
  case h_3 => rfl

variable (item) in
theorem items_comma {c : Cursor} {first : Char} {behind more : List Char} (steps : Nat)
    (h : Value.skipSpace c.rest = ',' :: behind) (hmore : Value.skipSpace behind = first :: more)
    (hopen : first ≠ ']') :
    ∃ c' : Cursor, c'.rest = first :: more ∧ items item (steps + 1) false c = (do
      let (x, c) ← item c'
      let (xs, c) ← items item steps false c
      .ok (x :: xs, c)) := by
  rw [← Cursor.rest_skipSpace] at h
  have hnext : c.skipSpace.next.skipSpace.rest = first :: more := by
    rw [Cursor.rest_skipSpace, Cursor.rest_next h, hmore]
  refine ⟨c.skipSpace.next.skipSpace, hnext, ?_⟩
  conv_lhs => rw [items]
  simp only [Bool.false_eq_true, if_false]
  split
  case h_1 hnil => rw [hnil] at h; cases h
  case h_2 hclose => rw [hclose] at h; cases h
  case h_3 hcons =>
    rw [if_pos (List.cons.inj (hcons.symm.trans h)).1]
    split
    case h_1 hnil => rw [hnil] at hnext; cases hnext
    case h_2 hclose => exact absurd (List.cons.inj (hnext.symm.trans hclose)).1 hopen
    case h_3 => rfl

theorem items_close {c : Cursor} {rest : List Char} (steps : Nat) (first : Bool)
    (h : Value.skipSpace c.rest = ']' :: rest) : bare (items item (steps + 1) first c) = some ([], rest) := by
  rw [← Cursor.rest_skipSpace] at h
  unfold items
  simp only [h, bare_ok, Cursor.rest_next h]

include hitem

/-- An item is read where it stands, and then those behind it. -/
theorem bare_items {fuel : Nat} {cs rest : List Char} {vs : List Value}
    (h : Value.parseItems fuel cs = some (vs, rest)) {steps : Nat} (hsteps : vs.length ≤ steps) {c : Cursor}
    (hstart : Value.skipSpace c.rest = Value.skipSpace cs) :
    bare (do
      let (x, c) ← item c
      let (xs, c) ← items item steps false c
      .ok (x :: xs, c)) = (vs.mapM make).map fun xs => (xs, rest) := by
  induction fuel generalizing cs vs steps c with
  | zero => cases h
  | succ fuel ih =>
    obtain ⟨v, behind, hvalue, hmore⟩ := Value.parseItems_cases h
    rw [← Value.parseValue_skipSpace, ← hstart, Value.parseValue_skipSpace] at hvalue
    -- What is made of the items behind this one, where something is made of it.
    obtain ⟨vs', rfl, hclosed, htail⟩ : ∃ vs', vs = v :: vs' ∧ Closed behind ∧
        ∀ {c₁ : Cursor}, c₁.rest = behind →
          bare (items item steps false c₁) = (vs'.mapM make).map fun xs => (xs, rest) := by
      rcases hmore with ⟨more, vs', hcomma, hitems, rfl⟩ | ⟨hclose, rfl⟩
      · refine ⟨vs', rfl, .of_skipSpace (hcomma ▸ .comma more), fun {c₁} hbehind => ?_⟩
        obtain ⟨first, left, hfirst, hopen⟩ := Value.skipSpace_item hitems
        cases steps with
        | zero => cases hsteps
        | succ steps =>
          obtain ⟨c', hrest, hread⟩ := items_comma item steps (hbehind ▸ hcomma) hfirst hopen
          rw [hread]
          refine ih hitems (Nat.le_of_succ_le_succ hsteps) ?_
          rw [hrest, ← hfirst, Value.skipSpace, Value.skipSpace, List.dropWhile_idempotent]
      · refine ⟨[], rfl, .of_skipSpace (hclose ▸ .bracket rest), fun {c₁} hbehind => ?_⟩
        cases steps with
        | zero => cases hsteps
        | succ steps => exact items_close steps false (hbehind ▸ hclose)
    have hread := hitem v hvalue hclosed
    rw [List.mapM_cons]
    cases hmake : make v with
    | none =>
      rw [hmake] at hread
      rw [bare_bind_none hread]
      rfl
    | some x =>
      rw [hmake] at hread
      obtain ⟨c₁, hok, hbehind⟩ := exists_of_bare hread
      rw [hok, ok_bind, bare_bind _ (g := fun p => some (x :: p.1, p.2)) fun _ _ => rfl, htail hbehind]
      cases vs'.mapM make <;> rfl

/-- An array is read as the list of what its items make. -/
theorem reads_list (v : Value) : Reads (list item) v (v.listOf? make) := by
  intro fuel c rest h _
  obtain ⟨_, htaken⟩ := Value.taken_of_some h
  generalize hstart : Value.skipSpace c.rest = start at htaken
  rw [← Cursor.rest_skipSpace] at hstart
  cases htaken with
  | emptyArray hclose =>
    rw [← Cursor.rest_next hstart] at hclose
    simp only [list, hstart]
    exact items_close _ true hclose
  | @array cs _ vs hopen hitems =>
    have hlength := (Value.length_parse _).2.1 hitems
    obtain ⟨first, more, hfirst, hne⟩ := Value.skipSpace_item hitems
    simp only [list, hstart]
    rw [items_first _ (by rw [Cursor.rest_next hstart]; exact hfirst) hne]
    refine bare_items hitem hitems (by omega) ?_
    rw [Cursor.rest_skipSpace, Cursor.rest_next hstart, Value.skipSpace, Value.skipSpace, List.dropWhile_idempotent]
  | number hnumber =>
    obtain ⟨first, more, rfl, hhead⟩ := Value.head_of_parseNumber hnumber
    unfold list
    simp only
    split
    case h_1 => rfl
    case h_2 hcons =>
      rw [(List.cons.inj (hstart.symm.trans hcons)).1] at hhead
      rcases hhead with h | h <;> cases h
    case h_3 => exact bare_wrongType _ _
  | _ =>
    simp only [list, hstart]
    exact bare_wrongType _ _

end Items

/-! ## Records from arrays -/

namespace Shape

/-- The record that the items of an array make of `value`. `ms` are the members
whose turn is yet to come. -/
def ofItems (put : String → σ → Value → Option σ) : List (Member σ) → σ → List Value → Option σ
  | ms, value, [] => if ms.any (·.required) then none else some value
  | [], _, _ :: _ => none
  | m :: ms, value, v :: vs => (put m.name value v).bind fun value => ofItems put ms value vs

/-- The record that a value makes. -/
def ofValue (s : Shape σ) (put : String → σ → Value → Option σ) : Value → Option σ
  | .object ms => s.ofMembers put [] s.start ms
  | .array vs => ofItems put s.members s.start vs
  | _ => none

end Shape

variable {s : Shape σ} {put : String → σ → Value → Option σ}

theorem elements_close (count : Nat) (ms : List (Member σ)) (value : σ) {c : Cursor} {rest : List Char}
    (h : Value.skipSpace c.rest = ']' :: rest) :
    bare (elements s count ms value c) = (Shape.ofItems put ms value []).map fun x => (x, rest) := by
  rw [← Cursor.rest_skipSpace] at h
  cases ms with
  | nil =>
    simp only [elements, h, bare_ok, Cursor.rest_next h]
    rfl
  | cons m ms =>
    simp only [elements, h, Shape.ofItems]
    split
    · rfl
    · rw [bare_ok, Cursor.rest_next h]
      rfl

theorem elements_first {m : Member σ} {ms : List (Member σ)} {value : σ} {c : Cursor} {first : Char}
    {more : List Char} (h : Value.skipSpace c.rest = first :: more) (hopen : first ≠ ']') :
    elements s 0 (m :: ms) value c = (do
      let (value, c) ← m.read value c.skipSpace
      elements s 1 ms value c) := by
  rw [← Cursor.rest_skipSpace] at h
  rw [elements]
  simp only [if_true]
  split
  case h_1 hnil => rw [hnil] at h; cases h
  case h_2 hclose => exact absurd (List.cons.inj (h.symm.trans hclose)).1 hopen
  case h_3 => rfl

theorem elements_comma (m : Member σ) (ms : List (Member σ)) (count : Nat) (value : σ) {c : Cursor} {first : Char}
    {behind more : List Char} (h : Value.skipSpace c.rest = ',' :: behind)
    (hmore : Value.skipSpace behind = first :: more) (hopen : first ≠ ']') :
    ∃ c' : Cursor, c'.rest = first :: more ∧ elements s (count + 1) (m :: ms) value c = (do
      let (value, c) ← m.read value c'
      elements s (count + 2) ms value c) := by
  rw [← Cursor.rest_skipSpace] at h
  have hnext : c.skipSpace.next.skipSpace.rest = first :: more := by
    rw [Cursor.rest_skipSpace, Cursor.rest_next h, hmore]
  refine ⟨c.skipSpace.next.skipSpace, hnext, ?_⟩
  rw [elements]
  simp only [Nat.add_one_ne_zero, if_false]
  split
  case h_1 hnil => rw [hnil] at h; cases h
  case h_2 hclose => rw [hclose] at h; cases h
  case h_3 hcons =>
    rw [if_pos (List.cons.inj (hcons.symm.trans h)).1]
    split
    case h_1 hnil => rw [hnil] at hnext; cases hnext
    case h_2 hclose => exact absurd (List.cons.inj (hnext.symm.trans hclose)).1 hopen
    case h_3 => rfl

/-- Where no member is left an item is one too many. -/
theorem elements_past (count : Nat) (value : σ) {c : Cursor} {first : Char} {more : List Char}
    (h : Value.skipSpace c.rest = first :: more) (hopen : first ≠ ']') : bare (elements s count [] value c) = none := by
  rw [← Cursor.rest_skipSpace] at h
  rw [elements]
  simp only
  split
  case h_2 hclose => exact absurd (List.cons.inj (h.symm.trans hclose)).1 hopen
  all_goals rfl

/-- A member is read where it stands, and then those behind it. -/
theorem bare_elements (hputs : s.Puts put) {fuel : Nat} {cs rest : List Char} {vs : List Value}
    (h : Value.parseItems fuel cs = some (vs, rest)) {m : Member σ} {ms : List (Member σ)}
    (hmembers : ∀ m' ∈ m :: ms, m' ∈ s.members) {count : Nat} {value : σ} {c : Cursor}
    (hstart : Value.skipSpace c.rest = Value.skipSpace cs) :
    bare (do
      let (value, c) ← m.read value c
      elements s (count + 1) ms value c) = (Shape.ofItems put (m :: ms) value vs).map fun x => (x, rest) := by
  induction fuel generalizing cs vs m ms count value c with
  | zero => cases h
  | succ fuel ih =>
    obtain ⟨v, behind, hvalue, hmore⟩ := Value.parseItems_cases h
    rw [← Value.parseValue_skipSpace, ← hstart, Value.parseValue_skipSpace] at hvalue
    obtain ⟨vs', rfl, hclosed, htail⟩ : ∃ vs', vs = v :: vs' ∧ Closed behind ∧
        ∀ {value : σ} {c₁ : Cursor}, c₁.rest = behind →
          bare (elements s (count + 1) ms value c₁) = (Shape.ofItems put ms value vs').map fun x => (x, rest) := by
      rcases hmore with ⟨more, vs', hcomma, hitems, rfl⟩ | ⟨hclose, rfl⟩
      · refine ⟨vs', rfl, .of_skipSpace (hcomma ▸ .comma more), fun {value c₁} hbehind => ?_⟩
        obtain ⟨first, left, hfirst, hopen⟩ := Value.skipSpace_item hitems
        cases ms with
        | nil =>
          rw [elements_past _ _ (hbehind ▸ hcomma) (by decide)]
          cases vs' with
          | nil => exact absurd rfl (Value.ne_nil_of_parseItems hitems)
          | cons v' vs' => rfl
        | cons m' ms =>
          obtain ⟨c', hrest, hread⟩ := elements_comma (s := s) m' ms count value (hbehind ▸ hcomma) hfirst
            hopen
          rw [hread]
          refine ih hitems (fun m hm => hmembers m (List.mem_cons_of_mem _ hm)) ?_
          rw [hrest, ← hfirst, Value.skipSpace, Value.skipSpace, List.dropWhile_idempotent]
      · refine ⟨[], rfl, .of_skipSpace (hclose ▸ .bracket rest), fun {value c₁} hbehind => ?_⟩
        exact elements_close (count + 1) ms value (hbehind ▸ hclose)
    have hread := hputs m (hmembers m List.mem_cons_self) value v hvalue hclosed
    rw [Shape.ofItems]
    cases hput : put m.name value v with
    | none =>
      rw [hput] at hread
      rw [bare_bind_none hread]
      rfl
    | some value' =>
      rw [hput] at hread
      obtain ⟨c₁, hok, hbehind⟩ := exists_of_bare hread
      rw [hok, ok_bind, Option.bind_some]
      exact htail hbehind

/-- Any value is read as the record that it makes. -/
theorem reads_value (hputs : s.Puts put) (v : Value) : Reads (record s) v (s.ofValue put v) := by
  intro fuel c rest h hrest
  cases v with
  | object ms => exact reads_record hputs ms h hrest
  | array vs =>
    obtain ⟨_, htaken⟩ := Value.taken_of_some h
    generalize hstart : Value.skipSpace c.rest = start at htaken
    rw [← Cursor.rest_skipSpace] at hstart
    cases htaken with
    | emptyArray hclose =>
      rw [← Cursor.rest_next hstart] at hclose
      simp only [record, hstart]
      exact elements_close 0 _ _ hclose
    | @array cs _ _ hopen hitems =>
      obtain ⟨first, more, hfirst, hne⟩ := Value.skipSpace_item hitems
      simp only [record, hstart, Shape.ofValue]
      cases hmembers : s.members with
      | nil =>
        rw [elements_past _ _ (by rw [Cursor.rest_next hstart]; exact hfirst) hne]
        cases vs with
        | nil => exact absurd rfl (Value.ne_nil_of_parseItems hitems)
        | cons v vs => rfl
      | cons m ms =>
        rw [elements_first (by rw [Cursor.rest_next hstart]; exact hfirst) hne]
        refine bare_elements hputs hitems (fun m' hm' => hmembers ▸ hm') ?_
        rw [Cursor.rest_skipSpace, Cursor.rest_next hstart, Value.skipSpace, Value.skipSpace,
          List.dropWhile_idempotent]
  | number literal =>
    obtain ⟨_, htaken⟩ := Value.taken_of_some h
    generalize hstart : Value.skipSpace c.rest = start at htaken
    rw [← Cursor.rest_skipSpace] at hstart
    cases htaken with
    | number hnumber =>
      obtain ⟨first, more, rfl, hhead⟩ := Value.head_of_parseNumber hnumber
      unfold record
      simp only
      split
      case h_1 => rfl
      case h_4 => exact bare_wrongType _ _
      -- No number starts like an array or an object.
      all_goals
        rename_i hother
        rw [(List.cons.inj (hstart.symm.trans hother)).1] at hhead
        rcases hhead with h | h <;> cases h
  | _ =>
    obtain ⟨_, htaken⟩ := Value.taken_of_some h
    generalize hstart : Value.skipSpace c.rest = start at htaken
    rw [← Cursor.rest_skipSpace] at hstart
    cases htaken <;>
    · simp only [record, hstart]
      exact bare_wrongType _ _

end Decode

end AgentHost.Json
