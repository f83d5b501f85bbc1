import AgentHost.Proofs.Config.Sections
/-!
# One value at a time

A field whose value no other field reads can be taken from elsewhere. A section that
is read so is read as it is written, too, but for what the value itself says
(`readSection_taking`): its errors are the section's, and what it holds is put on top.
Nodes are looked at through aliases here, so this holds of any document.
-/

namespace AgentHost.Config

open Yaml

/-! ## Nodes through aliases -/

/-- The node that a node stands for. -/
def resolve (root n : Node) : Node := (Place.follow root ⟨[], n⟩).node

theorem follow_node (root n : Node) (trail : Trail) : (Place.follow root ⟨trail, n⟩).node = resolve root n := by
  cases n <;> rfl

/-- The text of the scalar that a node stands for. -/
def scalarText? (root n : Node) : Option (List Char) :=
  match resolve root n with
  | .scalar _ _ _ text _ => some text
  | _ => none

/-- The values of the entries with a key of that name. -/
def valuesIn (root : Node) (name : String) (entries : List (Node × Node)) : List Node :=
  (entries.filter fun e => scalarText? root e.1 == some name.toList).map Prod.snd

/-- The values in the mapping that a node stands for. -/
def valuesOf (root n : Node) (name : String) : List Node :=
  match resolve root n with
  | .mapping _ _ _ entries => valuesIn root name entries
  | _ => []

variable {root : Node}

theorem mem_valuesIn {name : String} {entries : List (Node × Node)} {v : Node} :
    v ∈ valuesIn root name entries ↔ ∃ k, (k, v) ∈ entries ∧ scalarText? root k = some name.toList := by
  simp [valuesIn]

theorem readKey_eq {k : Node} {text : List Char} (h : scalarText? root k = some text) {outer : Trail}
    {key : List Char × Step} (hread : readKey root outer k = .ok key) : key.1 = text := by
  have htext : readText root .fieldName ⟨outer, k⟩ = .ok text := by
    unfold scalarText? at h
    split at h
    case h_1 hnode =>
      cases h
      simp only [readText, follow_node, hnode]
    case h_2 => cases h
  rw [readKey, htext] at hread
  cases hread
  rfl

/-! ## Fields that take their value from elsewhere -/

variable {σ α : Type} {fields : List (Field σ)} {name : String} {put : α → σ → σ}

/-- The field, with what `value` reads put in place if it has the name. -/
def Field.taking (name : String) (value : Place → Except Refusal α) (put : α → σ → σ) (f : Field σ) : Field σ :=
  if f.name = name then ⟨f.name, fun p s => (value p).map (put · s)⟩ else f

/-- The fields, where the one of that name puts in place what `value` reads. -/
def taking (name : String) (value : Place → Except Refusal α) (put : α → σ → σ) (fields : List (Field σ)) :
    List (Field σ) := fields.map (Field.taking name value put)

/-- One field puts its value in place, and no other field looks at it. -/
structure Independent (fields : List (Field σ)) (name : String) (put : α → σ → σ) : Prop where
  known : ∃ f ∈ fields, f.name = name
  other : ∀ f ∈ fields, f.name ≠ name → ∀ p s a, f.read p (put a s) = (f.read p s).map (put a)
  put_put : ∀ a b s, put a (put b s) = put a s

theorem Independent.exists_fieldAt (h : Independent fields name put) : ∃ f, fieldAt fields name.toList = some f := by
  obtain ⟨f, hmem, rfl⟩ := h.known
  exact Option.isSome_iff_exists.1 (List.find?_isSome.2 ⟨f, hmem, beq_self_eq_true _⟩)

theorem Field.name_taking (value : Place → Except Refusal α) (f : Field σ) : (f.taking name value put).name = f.name := by
  unfold Field.taking
  split <;> rfl

theorem fieldAt_taking (value : Place → Except Refusal α) (text : List Char) :
    fieldAt (taking name value put fields) text = (fieldAt fields text).map (Field.taking name value put) := by
  simp only [fieldAt, taking, List.find?_map, Function.comp_def, Field.name_taking]

theorem readEntries_cons {outer : Place} {mark : Mark} {seen : List String} {k v : Node} {rest : List (Node × Node)}
    {s : σ} : readEntries root fields outer mark seen ((k, v) :: rest) s =
      readKey root outer.trail k >>= fun key => match fieldAt fields key.1 with
        | some f =>
          if seen.contains f.name then refuse outer mark (.duplicateField f.name)
          else f.read ⟨key.2 :: outer.trail, v⟩ s >>= readEntries root fields outer mark (f.name :: seen) rest
        | none => if v.isWhole then readEntries root fields outer mark seen rest s else .error .cut := by
  rw [readEntries]
  rfl

/-- Behind the field, its value makes no difference to what is read. -/
theorem readEntries_behind (h : Independent fields name put) (value value' : Place → Except Refusal α) {outer : Place}
    {mark : Mark} {seen : List String} (hseen : name ∈ seen) (entries : List (Node × Node)) (s : σ) (a : α) :
    readEntries root (taking name value put fields) outer mark seen entries (put a s) =
      (readEntries root (taking name value' put fields) outer mark seen entries s).map (put a) := by
  induction entries generalizing seen s with
  | nil => rfl
  | cons e rest ih =>
    obtain ⟨k, v⟩ := e
    simp only [readEntries_cons, fieldAt_taking]
    cases hkey : readKey root outer.trail k with
    | error refusal => rfl
    | ok key =>
      simp only [ok_bind]
      cases hfield : fieldAt fields key.1 with
      | none =>
        simp only [Option.map_none]
        split
        · exact ih hseen s
        · rfl
      | some f =>
        simp only [Option.map_some, Field.name_taking]
        split
        · rfl
        case isFalse hnew =>
          have hname : f.name ≠ name := by
            rintro rfl
            exact hnew (List.elem_eq_true_of_mem hseen)
          simp only [Field.taking, if_neg hname, h.other f (mem_of_fieldAt hfield).1 hname]
          cases f.read ⟨key.2 :: outer.trail, v⟩ s with
          | error refusal => rfl
          | ok s₁ => exact ih (List.mem_cons_of_mem _ hseen) s₁

/-- Entries that are read hold no second value of a field. -/
theorem not_mem_valuesIn (hknown : ∃ f, fieldAt fields name.toList = some f) {outer : Place} {mark : Mark}
    {seen : List String} (hseen : name ∈ seen) {entries : List (Node × Node)} {s s' : σ}
    (hread : readEntries root fields outer mark seen entries s = .ok s') (v : Node) : v ∉ valuesIn root name entries := by
  rw [mem_valuesIn]
  rintro ⟨k, hmem, hname⟩
  induction entries generalizing seen s with
  | nil => cases hmem
  | cons e rest ih =>
    rw [readEntries_cons] at hread
    obtain ⟨key, hkey, hread⟩ := ok_of_bind hread
    rcases List.mem_cons.1 hmem with rfl | hmem
    · -- The key names the field, which was met before.
      obtain ⟨f, hfield⟩ := hknown
      have hsame : f.name = name := (String.toList_inj.1 (mem_of_fieldAt hfield).2).symm
      simp only [readKey_eq hname hkey, hfield, hsame, List.elem_eq_true_of_mem hseen, if_true] at hread
      cases hread
    · split at hread
      · split at hread
        · cases hread
        · obtain ⟨s₁, -, hread⟩ := ok_of_bind hread
          exact ih (List.mem_cons_of_mem _ hseen) hread hmem
      · split at hread
        · exact ih hseen hread hmem
        · cases hread

/-- What is read with one value is read with any other, but for that value. The
induction is on the entries: the field is left alone before its entry, and makes no
difference behind it. -/
theorem readEntries_taking (h : Independent fields name put) {value : Place → Except Refusal α} {outer : Place}
    {mark : Mark} {seen : List String} {entries : List (Node × Node)} {s s' : σ}
    (hread : readEntries root (taking name value put fields) outer mark seen entries s = .ok s') {v : Node}
    (hentry : v ∈ valuesIn root name entries) :
    ∃ trail b, value ⟨trail, v⟩ = .ok b ∧ put b s' = s' ∧ ∀ value' : Place → Except Refusal α,
      readEntries root (taking name value' put fields) outer mark seen entries s =
        (value' ⟨trail, v⟩).map (put · s') := by
  rw [mem_valuesIn] at hentry
  obtain ⟨k, hmem, hname⟩ := hentry
  induction entries generalizing seen s with
  | nil => cases hmem
  | cons e rest ih =>
    obtain ⟨k', v'⟩ := e
    simp only [readEntries_cons, fieldAt_taking] at hread ⊢
    obtain ⟨key, hkey, hread⟩ := ok_of_bind hread
    simp only [hkey, ok_bind]
    have hhead : (k, v) = (k', v') → key.1 = name.toList := fun hsame => readKey_eq ((Prod.mk.inj hsame).1 ▸ hname) hkey
    cases hfield : fieldAt fields key.1 with
    | none =>
      simp only [hfield, Option.map_none] at hread ⊢
      split at hread
      case isTrue hwhole =>
        rcases List.mem_cons.1 hmem with hsame | hmem
        · obtain ⟨f, hknown⟩ := h.exists_fieldAt
          rw [hhead hsame, hknown] at hfield
          cases hfield
        · simp only [if_pos hwhole]
          exact ih hread hmem
      case isFalse => cases hread
    | some f =>
      simp only [hfield, Option.map_some, Field.name_taking] at hread ⊢
      split at hread
      · cases hread
      case isFalse hnew =>
        simp only [if_neg hnew]
        by_cases hown : f.name = name
        · subst hown
          simp only [Field.taking, if_true] at hread ⊢
          obtain ⟨s₁, hhere, hread⟩ := ok_of_bind hread
          obtain ⟨b, hvalue, rfl⟩ := ok_of_map hhere
          rw [readEntries_behind h value value List.mem_cons_self] at hread
          obtain ⟨s₂, hrest, rfl⟩ := ok_of_map hread
          rcases List.mem_cons.1 hmem with hsame | hmem
          · obtain ⟨-, rfl⟩ := Prod.mk.inj hsame
            refine ⟨_, b, hvalue, h.put_put b b s₂, fun value' => ?_⟩
            cases value' ⟨key.2 :: outer.trail, v⟩ with
            | error refusal => rfl
            | ok a =>
              show readEntries root _ outer mark _ rest (put a s) = .ok (put a (put b s₂))
              rw [readEntries_behind h value' value List.mem_cons_self, hrest, h.put_put]
              rfl
          · have hknown : ∃ g, fieldAt (taking f.name value put fields) f.name.toList = some g := by
              obtain ⟨g, hg⟩ := h.exists_fieldAt
              rw [fieldAt_taking, hg]
              exact ⟨_, rfl⟩
            exact absurd (mem_valuesIn.2 ⟨k, hmem, hname⟩) (not_mem_valuesIn hknown List.mem_cons_self hrest v)
        · rcases List.mem_cons.1 hmem with hsame | hmem
          · have htext := (mem_of_fieldAt hfield).2
            rw [hhead hsame] at htext
            exact absurd (String.toList_inj.1 htext).symm hown
          · simp only [Field.taking, if_neg hown] at hread ⊢
            obtain ⟨s₁, hfield, hread⟩ := ok_of_bind hread
            simp only [hfield, ok_bind]
            exact ih hread hmem

/-- A section that is read with one value is read with any other, but for that value. -/
theorem readSection_taking (h : Independent fields name put) {value : Place → Except Refusal α} {record : String}
    {start s' : σ} {p : Place}
    (hread : readSection root record (fun _ _ => taking name value put fields) start p = .ok s') {v : Node}
    (hentry : v ∈ valuesOf root p.node name) :
    ∃ trail b, value ⟨trail, v⟩ = .ok b ∧ put b s' = s' ∧ ∀ value' : Place → Except Refusal α,
      readSection root record (fun _ _ => taking name value' put fields) start p =
        (value' ⟨trail, v⟩).map (put · s') := by
  unfold valuesOf at hentry
  split at hentry
  case h_1 mark anchor tag entries hnode =>
    rw [← follow_node root p.node p.trail] at hnode
    simp only [readSection, hnode] at hread ⊢
    exact readEntries_taking h hread hentry
  case h_2 => cases hentry

/-- A field that takes the value that it reads anyway. -/
theorem taking_own {value : Place → Except Refusal α}
    (h : ∀ f ∈ fields, f.name = name → ∀ p s, f.read p s = (value p).map (put · s)) :
    taking name value put fields = fields := by
  have heach : ∀ f ∈ fields, f.taking name value put = id f := by
    intro f hf
    unfold Field.taking
    split
    case isTrue hname =>
      have hread : (fun p s => (value p).map (put · s)) = f.read :=
        funext fun p => funext fun s => (h f hf hname p s).symm
      rw [hread]
      rfl
    case isFalse => rfl
  rw [taking, List.map_congr_left heach, List.map_id]

end AgentHost.Config
