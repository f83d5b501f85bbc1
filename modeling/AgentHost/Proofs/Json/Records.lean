import AgentHost.Proofs.Json.Readers
/-!
# Records from objects

A record is made from the members of an object alone, in their order: those of
known names are put into it, the others do not count. What is read with places is
that record.
-/

namespace AgentHost.Json.Decode

variable {σ : Type}

namespace Shape

/-- The record that the members of an object make of `value`. `put` puts the value
of a known member into it; `seen` are the names of those before. -/
def ofMembers (s : Shape σ) (put : String → σ → Value → Option σ) :
    List String → σ → List (List Char × Value) → Option σ
  | seen, value, [] => if (s.missing? seen).isSome then none else some value
  | seen, value, (name, v) :: rest =>
    match s.member? name with
    | some m =>
      if seen.contains m.name then none
      else (put m.name value v).bind fun value => s.ofMembers put (m.name :: seen) value rest
    | none => s.ofMembers put seen value rest

/-- Every member of the shape reads what is put into the record for it. -/
def Puts (s : Shape σ) (put : String → σ → Value → Option σ) : Prop :=
  ∀ m ∈ s.members, ∀ value v, Reads (m.read value) v (put m.name value v)

end Shape

/-! ## Between the members -/

theorem nextName_first {c : Cursor} {cs : List Char} (h : Value.skipSpace c.rest = '"' :: cs) :
    ∃ c' : Cursor, nextName true c = .ok (.inl c') ∧ c'.rest = cs := by
  rw [← Cursor.rest_skipSpace] at h
  refine ⟨c.skipSpace.next, ?_, Cursor.rest_next h⟩
  simp only [nextName, h]
  rfl

theorem nextName_comma {c : Cursor} {more cs : List Char} (h : Value.skipSpace c.rest = ',' :: more)
    (hmore : Value.skipSpace more = '"' :: cs) : ∃ c' : Cursor, nextName false c = .ok (.inl c') ∧ c'.rest = cs := by
  rw [← Cursor.rest_skipSpace] at h
  rw [← Cursor.rest_next h, ← Cursor.rest_skipSpace] at hmore
  refine ⟨c.skipSpace.next.skipSpace.next, ?_, Cursor.rest_next hmore⟩
  simp only [nextName, h, hmore]
  rfl

theorem nextName_close {c : Cursor} {rest : List Char} (first : Bool) (h : Value.skipSpace c.rest = '}' :: rest) :
    nextName first c = .ok (.inr c.skipSpace) := by
  rw [← Cursor.rest_skipSpace] at h
  simp only [nextName, h]

theorem left_colon {c : Cursor} {rest : List Char} (h : Value.skipSpace c.rest = ':' :: rest) :
    left (colon c) = some rest := by
  rw [← Cursor.rest_skipSpace] at h
  simp only [colon, h, left_ok, Cursor.rest_next h]

/-! ## Members -/

theorem bare_members_close {s : Shape σ} {put : String → σ → Value → Option σ} (fuel : Nat) (first : Bool)
    (seen : List String) (value : σ) {c : Cursor} {rest : List Char} (h : Value.skipSpace c.rest = '}' :: rest) :
    bare (members s (fuel + 1) first seen value c) = (s.ofMembers put seen value []).map fun x => (x, rest) := by
  have hend : c.skipSpace.next.rest = rest := Cursor.rest_next ((Cursor.rest_skipSpace c).trans h)
  simp only [members, nextName_close first h, ok_bind, Shape.ofMembers]
  cases s.missing? seen with
  | none => rw [bare_ok, hend]; rfl
  | some name => rfl

theorem bare_members {s : Shape σ} {put : String → σ → Value → Option σ} (hputs : s.Puts put) {fuel : Nat}
    {cs rest : List Char} {ms : List (List Char × Value)} (h : Value.parseMembers fuel cs = some (ms, rest))
    {steps : Nat} {first : Bool} {seen : List String} {value : σ} {c c' : Cursor}
    (hnext : nextName first c = .ok (.inl c')) (hstart : Value.skipSpace cs = '"' :: c'.rest)
    (hsteps : ms.length < steps) :
    bare (members s steps first seen value c) = (s.ofMembers put seen value ms).map fun x => (x, rest) := by
  induction fuel generalizing cs ms steps first seen value c c' with
  | zero => cases h
  | succ fuel ih =>
    obtain ⟨name, v, behindQuote, behindName, behindColon, behind, hquote, hname, hcolon, hvalue, hmore⟩ :=
      Value.parseMembers_cases h
    obtain ⟨-, rfl⟩ := List.cons.inj (hquote.symm.trans hstart)
    have hstring := Token.bare_readString (c'.rest.length + 1) c'
    rw [hname] at hstring
    obtain ⟨c₁, hread, rfl⟩ := exists_of_bare hstring
    obtain ⟨c₂, hcolonread, rfl⟩ := exists_of_left (left_colon hcolon)
    -- What the members behind this one make of the record, however it was read.
    obtain ⟨ms', rfl, hclosed, htail⟩ : ∃ ms', ms = (name, v) :: ms' ∧ Closed behind ∧
        ∀ {steps seen value} {c₃ : Cursor}, ms'.length < steps → c₃.rest = behind →
          bare (members s steps false seen value c₃) = (s.ofMembers put seen value ms').map fun x => (x, rest) := by
      rcases hmore with ⟨more, ms', hcomma, hmembers, rfl⟩ | ⟨hclose, rfl⟩
      · refine ⟨ms', rfl, .of_skipSpace (hcomma ▸ .comma more), fun hsteps hbehind => ?_⟩
        obtain ⟨quoted, hquoted⟩ := Value.skipSpace_quote hmembers
        obtain ⟨c₄, hnextname, rfl⟩ := nextName_comma (hbehind ▸ hcomma) hquoted
        exact ih hmembers hnextname hquoted hsteps
      · refine ⟨[], rfl, .of_skipSpace (hclose ▸ .brace rest), fun {steps} _ _ _ hsteps hbehind => ?_⟩
        cases steps with
        | zero => cases hsteps
        | succ steps => exact bare_members_close steps _ _ _ (hbehind ▸ hclose)
    cases steps with
    | zero => cases hsteps
    | succ steps =>
      have hfewer : ms'.length < steps := Nat.lt_of_succ_lt_succ hsteps
      simp only [members, hnext, hread, ok_bind, Shape.ofMembers]
      cases hmember : s.member? name with
      | none =>
        obtain ⟨c₃, hskip, hbehind⟩ := exists_of_left
          (Token.left_skipValue hvalue hclosed (show c₂.rest.length ≤ 2 * c₂.rest.length + 2 by omega))
        simp only [hcolonread, hskip, ok_bind]
        exact htail hfewer hbehind
      | some m =>
        by_cases hseen : seen.contains m.name = true
        · simp only [hseen, if_true, Cursor.bare_fail, Option.map_none]
        · have hput := hputs m (List.mem_of_find?_eq_some hmember) value v hvalue hclosed
          simp only [hseen, Bool.false_eq_true, if_false, hcolonread, ok_bind]
          cases hvalue' : put m.name value v with
          | none =>
            rw [hvalue'] at hput
            rw [bare_bind_none hput]
            rfl
          | some value' =>
            rw [hvalue'] at hput
            obtain ⟨c₃, hok, hbehind⟩ := exists_of_bare hput
            simp only [hok, ok_bind, Option.bind_some]
            exact htail hfewer hbehind

/-- An object is read as the record that its members make. -/
theorem reads_record {s : Shape σ} {put : String → σ → Value → Option σ} (hputs : s.Puts put)
    (ms : List (List Char × Value)) : Reads (record s) (.object ms) (s.ofMembers put [] s.start ms) := by
  intro fuel c rest h hrest
  obtain ⟨_, htaken⟩ := Value.taken_of_some h
  generalize hstart : Value.skipSpace c.rest = start at htaken
  rw [← Cursor.rest_skipSpace] at hstart
  cases htaken with
  | emptyObject hclose =>
    rw [← Cursor.rest_next hstart] at hclose
    simp only [record, hstart]
    exact bare_members_close _ true [] s.start hclose
  | @object cs _ ms hopen hmembers =>
    have hlength := (Value.length_parse _).2.2 hmembers
    obtain ⟨quoted, hquote⟩ := Value.skipSpace_quote hmembers
    rw [← Cursor.rest_next hstart] at hmembers hquote hlength
    obtain ⟨c', hname, rfl⟩ := nextName_first hquote
    simp only [record, hstart]
    exact bare_members hputs hmembers hname hquote (by rw [Cursor.rest_next hstart] at hlength; omega)

/-! ## Whole texts -/

/-- A text that is read as a tree is read as what that tree makes. -/
theorem whole_toOption {α : Type} {read : Cursor → Except DecodeError (α × Cursor)} {v : Value} {x : Option α}
    (hreads : Reads read v x) {cs : List Char} (h : Value.parse cs = some v) : (whole read cs).toOption = x := by
  unfold Value.parse at h
  split at h
  case h_2 => cases h
  case h_1 v' rest hvalue =>
    split at h
    case isFalse => cases h
    case isTrue hend =>
      cases h
      have hspace : Value.skipSpace rest = [] := List.isEmpty_iff.1 hend
      have hread := hreads (c := Cursor.start cs) hvalue (.of_skipSpace (hspace ▸ trivial))
      cases x with
      | none =>
        unfold whole
        cases hok : read (Cursor.start cs) with
        | error e => rfl
        | ok p =>
          rw [hok] at hread
          cases hread
      | some x =>
        obtain ⟨c', hok, rfl⟩ := exists_of_bare hread
        have hlast : c'.skipSpace.rest = [] := (Cursor.rest_skipSpace c').trans hspace
        simp only [whole, hok, ok_bind, hlast]
        rfl

end AgentHost.Json.Decode
