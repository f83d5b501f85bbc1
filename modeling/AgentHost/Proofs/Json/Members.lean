import AgentHost.Proofs.Json.Lists
import Mathlib.Data.List.Nodup
/-!
# Records by the names of their members

Which record an object makes depends on nothing but the values that stand under the
names of its members. A `Layout` has for each name what its value has to be and what
the record is then. Where the layout fits the shape that is read, an object is read
just if the layout accepts its members (`Fits.exists_told_iff`), and as the record that
they tell of (`Fits.ofValue_iff`), so neither their order nor other members count.
-/

namespace AgentHost.Json

/-! ## Values by name -/

namespace Value

/-- The values of the members of that name, in their order. -/
def valuesOf (name : String) (ms : List (List Char × Value)) : List Value :=
  ms.filterMap fun m => if m.1 = name.toList then some m.2 else none

theorem valuesOf_cons_self (name : String) (v : Value) (ms : List (List Char × Value)) :
    valuesOf name ((name.toList, v) :: ms) = v :: valuesOf name ms := by
  simp [valuesOf]

theorem valuesOf_cons_ne {name : String} {other : List Char} (h : other ≠ name.toList) (v : Value)
    (ms : List (List Char × Value)) : valuesOf name ((other, v) :: ms) = valuesOf name ms := by
  simp [valuesOf, h]

theorem valuesOf_append (name : String) (ms ms' : List (List Char × Value)) :
    valuesOf name (ms ++ ms') = valuesOf name ms ++ valuesOf name ms' :=
  List.filterMap_append

/-- The members that a value has as a record of such names: those of an object, or
the items of an array, each under the name whose turn it is. -/
def membersIn (names : List String) : Value → Option (List (List Char × Value))
  | .object ms => some ms
  | .array vs => if vs.length ≤ names.length then some ((names.map String.toList).zip vs) else none
  | _ => none

end Value

open Value (valuesOf)
open Decode (Shape Member)

/-! ## Layouts -/

/-- What a member of a record has to be: its name, whether it has to be there, the
values that it may have, and which records have that value, or none, there. -/
structure Entry (σ : Type) where
  name : String
  required : Bool
  kind : Value → Prop
  tells : Option Value → σ → Prop

/-- The members of a record. Their names differ, and together they say which record
it is. -/
structure Layout (σ : Type) where
  entries : List (Entry σ)
  distinct : (entries.map Entry.name).Nodup
  determined : ∀ x y, (∀ e ∈ entries, ∃ o, e.tells o x ∧ e.tells o y) → x = y

namespace Layout

variable {σ : Type}

def names (l : Layout σ) : List String := l.entries.map Entry.name

/-- Each required member is there once and each other at most once, and their values
are of the right kind. -/
def Accepts (l : Layout σ) (ms : List (List Char × Value)) : Prop :=
  ∀ e ∈ l.entries, (valuesOf e.name ms).length ≤ 1 ∧ (e.required = true → (valuesOf e.name ms).length = 1) ∧
    ∀ v ∈ valuesOf e.name ms, e.kind v

/-- No member is there twice, and the record is what the one value of each makes it, or
what its absence does. -/
def Told (l : Layout σ) (ms : List (List Char × Value)) (x : σ) : Prop :=
  ∀ e ∈ l.entries, (valuesOf e.name ms).length ≤ 1 ∧ e.tells (valuesOf e.name ms).head? x

/-- The layout is that of the shape, and what `put` puts into a record it puts there
for the member of that name alone. -/
structure Fits (l : Layout σ) (s : Shape σ) (put : String → σ → Value → Option σ) : Prop where
  members : s.members.map (fun m => (m.name, m.required)) = l.entries.map fun e => (e.name, e.required)
  start : ∀ e ∈ l.entries, e.required = false → e.tells none s.start
  absent : ∀ e ∈ l.entries, ∀ x, e.tells none x → e.required = false
  kind : ∀ e ∈ l.entries, ∀ v x, e.tells (some v) x → e.kind v
  puts : ∀ e ∈ l.entries, ∀ v x, e.kind v → ∃ y, put e.name x v = some y
  own : ∀ e ∈ l.entries, ∀ v x y, put e.name x v = some y → e.tells (some v) y
  other : ∀ e ∈ l.entries, ∀ e' ∈ l.entries, e'.name ≠ e.name → ∀ v x y, put e.name x v = some y →
    ∀ o, e'.tells o y ↔ e'.tells o x

end Layout

namespace Layout.Fits

variable {σ : Type} {l : Layout σ} {s : Shape σ} {put : String → σ → Value → Option σ} (h : l.Fits s put)
include h

/-! ## Members of the shape -/

theorem entry_of_member {m : Member σ} (hm : m ∈ s.members) :
    ∃ e ∈ l.entries, e.name = m.name ∧ e.required = m.required := by
  have hpair : (m.name, m.required) ∈ l.entries.map fun e => (e.name, e.required) :=
    h.members ▸ List.mem_map_of_mem hm
  obtain ⟨e, he, hsame⟩ := List.mem_map.1 hpair
  exact ⟨e, he, (Prod.mk.inj hsame).1, (Prod.mk.inj hsame).2⟩

theorem member_of_entry {e : Entry σ} (he : e ∈ l.entries) :
    ∃ m ∈ s.members, m.name = e.name ∧ m.required = e.required := by
  have hpair : (e.name, e.required) ∈ s.members.map fun m => (m.name, m.required) :=
    h.members ▸ List.mem_map_of_mem he
  obtain ⟨m, hm, hsame⟩ := List.mem_map.1 hpair
  exact ⟨m, hm, (Prod.mk.inj hsame).1, (Prod.mk.inj hsame).2⟩

/-- A known name is that of an entry. -/
theorem entry_of_member? {name : List Char} {m : Member σ} (hm : s.member? name = some m) :
    ∃ e ∈ l.entries, e.name = m.name ∧ name = e.name.toList := by
  obtain ⟨e, he, hname, -⟩ := h.entry_of_member (List.mem_of_find?_eq_some hm)
  unfold Shape.member? at hm
  have hfound := List.find?_some hm
  exact ⟨e, he, hname, by rw [hname, eq_of_beq hfound]⟩

theorem ne_of_member?_none {name : List Char} (hm : s.member? name = none) {e : Entry σ} (he : e ∈ l.entries) :
    name ≠ e.name.toList := by
  rintro rfl
  obtain ⟨m, hmem, hname, -⟩ := h.member_of_entry he
  exact List.find?_eq_none.1 hm m hmem (by simp [hname])

/-- No member is missing where those that are required were seen. -/
theorem missing?_eq_none_iff {seen : List String} :
    s.missing? seen = none ↔ ∀ e ∈ l.entries, e.required = true → e.name ∈ seen := by
  simp only [Shape.missing?, Option.map_eq_none_iff, List.find?_eq_none, Bool.and_eq_true, Bool.not_eq_true',
    List.contains_eq_mem, decide_eq_false_iff_not, not_and, not_not]
  constructor
  · intro hseen e he hrequired
    obtain ⟨m, hm, hname, hsame⟩ := h.member_of_entry he
    exact hname ▸ hseen m hm (hsame.trans hrequired)
  · intro hseen m hm hrequired
    obtain ⟨e, he, hname, hsame⟩ := h.entry_of_member hm
    exact hname ▸ hseen e he (hsame.trans hrequired)

/-! ## Reading in order -/

/-- What is read tells of each member whether it was there: then the record has its
value, else it has what it had. -/
theorem of_ofMembers {seen : List String} {x y : σ} {ms : List (List Char × Value)}
    (hread : s.ofMembers put seen x ms = some y) {e : Entry σ} (he : e ∈ l.entries) :
    (valuesOf e.name ms = [] ∧ (e.required = true → e.name ∈ seen) ∧ ∀ o, e.tells o y ↔ e.tells o x) ∨
      e.name ∉ seen ∧ ∃ v, valuesOf e.name ms = [v] ∧ e.tells (some v) y := by
  -- In the order of the text: each known member adds its name to those seen and its value to the record.
  induction ms generalizing seen x with
  | nil =>
    rw [Shape.ofMembers] at hread
    split at hread
    case isTrue => cases hread
    case isFalse hmissing =>
      cases hread
      exact .inl ⟨rfl, h.missing?_eq_none_iff.1 (Option.not_isSome_iff_eq_none.1 hmissing) e he, fun _ => Iff.rfl⟩
  | cons first ms ih =>
    obtain ⟨name, v⟩ := first
    rw [Shape.ofMembers] at hread
    cases hm : s.member? name with
    | none =>
      simp only [hm] at hread
      rw [Value.valuesOf_cons_ne (h.ne_of_member?_none hm he)]
      exact ih hread
    | some m =>
      obtain ⟨e', he', hname, rfl⟩ := h.entry_of_member? hm
      simp only [hm, ← hname, List.contains_eq_mem, decide_eq_true_eq] at hread
      split at hread
      case isTrue => cases hread
      case isFalse hseen =>
        obtain ⟨x', hput, hrest⟩ := Option.bind_eq_some_iff.1 hread
        by_cases hsame : e.name = e'.name
        · -- The member is this one, so it is not among those behind it.
          rcases ih hrest with ⟨hnone, -, hkept⟩ | ⟨hunseen, -⟩
          · refine .inr ⟨hsame ▸ hseen, v, ?_, (hkept _).2 (h.own e he v x x' (hsame ▸ hput))⟩
            rw [← hsame, Value.valuesOf_cons_self, hnone]
          · exact absurd (hsame ▸ List.mem_cons_self) hunseen
        · rw [Value.valuesOf_cons_ne (fun hlist => hsame (String.toList_inj.1 hlist).symm)]
          rcases ih hrest with ⟨hnone, hrequired, hkept⟩ | ⟨hunseen, hvalue⟩
          · refine .inl ⟨hnone, fun hr => ?_, fun o => (hkept o).trans (h.other e' he' e he hsame v x x' hput o)⟩
            exact (List.mem_cons.1 (hrequired hr)).resolve_left hsame
          · exact .inr ⟨fun hmem => hunseen (List.mem_cons_of_mem _ hmem), hvalue⟩

/-- Members that are as they should be are read. -/
theorem exists_ofMembers {seen : List String} (x : σ) {ms : List (List Char × Value)}
    (hmembers : ∀ e ∈ l.entries, (valuesOf e.name ms).length ≤ 1 ∧ (e.name ∈ seen → valuesOf e.name ms = []) ∧
      (e.required = true → e.name ∉ seen → valuesOf e.name ms ≠ []) ∧ ∀ v ∈ valuesOf e.name ms, e.kind v) :
    ∃ y, s.ofMembers put seen x ms = some y := by
  induction ms generalizing seen x with
  | nil =>
    have hmissing : s.missing? seen = none := by
      refine h.missing?_eq_none_iff.2 fun e he hrequired => ?_
      by_contra hunseen
      exact (hmembers e he).2.2.1 hrequired hunseen rfl
    exact ⟨x, by rw [Shape.ofMembers, hmissing]; rfl⟩
  | cons first ms ih =>
    obtain ⟨name, v⟩ := first
    rw [Shape.ofMembers]
    cases hm : s.member? name with
    | none =>
      refine ih x fun e he => ?_
      have hhere := hmembers e he
      rwa [Value.valuesOf_cons_ne (h.ne_of_member?_none hm he)] at hhere
    | some m =>
      obtain ⟨e, he, hname, rfl⟩ := h.entry_of_member? hm
      obtain ⟨honce, hseen, -, hkind⟩ := hmembers e he
      rw [Value.valuesOf_cons_self] at honce hseen hkind
      have hunseen : e.name ∉ seen := fun hmem => List.cons_ne_nil _ _ (hseen hmem)
      have hlast : valuesOf e.name ms = [] := List.length_eq_zero_iff.1 (Nat.le_zero.1 (Nat.le_of_succ_le_succ honce))
      obtain ⟨x', hput⟩ := h.puts e he v x (hkind v List.mem_cons_self)
      simp only [← hname, List.contains_eq_mem, hunseen, decide_false, Bool.false_eq_true, if_false, hput,
        Option.bind_some]
      refine ih x' fun e' he' => ?_
      by_cases hsame : e'.name = e.name
      · -- It has had its value, and none is left behind.
        rw [hsame, hlast]
        exact ⟨Nat.zero_le _, fun _ => rfl, fun _ hmem => absurd List.mem_cons_self hmem, fun _ hmem => by cases hmem⟩
      · have hhere := hmembers e' he'
        rw [Value.valuesOf_cons_ne fun hlist => hsame (String.toList_inj.1 hlist).symm] at hhere
        obtain ⟨honce', hseen', hrequired', hkind'⟩ := hhere
        exact ⟨honce', fun hmem => hseen' ((List.mem_cons.1 hmem).resolve_left hsame),
          fun hr hmem => hrequired' hr fun hold => hmem (List.mem_cons_of_mem _ hold), hkind'⟩

/-! ## Objects -/

theorem told_of_ofMembers {x : σ} {ms : List (List Char × Value)} (hread : s.ofMembers put [] s.start ms = some x) :
    l.Told ms x := by
  intro e he
  rcases h.of_ofMembers hread he with ⟨hnone, hrequired, hkept⟩ | ⟨-, v, hone, htells⟩
  · have hoptional : e.required = false := Bool.eq_false_iff.2 fun hr => List.not_mem_nil (hrequired hr)
    rw [hnone]
    exact ⟨Nat.zero_le _, (hkept none).2 (h.start e he hoptional)⟩
  · rw [hone]
    exact ⟨Nat.le_refl _, htells⟩

theorem accepts_of_told {x : σ} {ms : List (List Char × Value)} (htold : l.Told ms x) : l.Accepts ms := by
  intro e he
  obtain ⟨honce, htells⟩ := htold e he
  refine ⟨honce, ?_⟩
  match hvalues : valuesOf e.name ms, honce with
  | [], _ =>
    rw [hvalues] at htells
    exact ⟨fun hr => absurd (h.absent e he x htells) (by simp [hr]), fun v hv => by cases hv⟩
  | [v], _ =>
    rw [hvalues] at htells
    refine ⟨fun _ => rfl, fun v' hv' => ?_⟩
    rw [List.mem_singleton.1 hv']
    exact h.kind e he v x htells

theorem exists_of_accepts {ms : List (List Char × Value)} (haccepts : l.Accepts ms) :
    ∃ x, s.ofMembers put [] s.start ms = some x := by
  refine h.exists_ofMembers s.start fun e he => ?_
  obtain ⟨honce, hrequired, hkind⟩ := haccepts e he
  refine ⟨honce, fun hmem => absurd hmem List.not_mem_nil, fun hr _ hnone => ?_, hkind⟩
  have hlength := hrequired hr
  rw [hnone] at hlength
  cases hlength

/-- Members make the record that they tell of, and no other. -/
theorem ofMembers_iff {x : σ} {ms : List (List Char × Value)} :
    s.ofMembers put [] s.start ms = some x ↔ l.Told ms x := by
  refine ⟨h.told_of_ofMembers, fun htold => ?_⟩
  obtain ⟨y, hread⟩ := h.exists_of_accepts (h.accepts_of_told htold)
  have hsame : x = y := l.determined x y fun e he => ⟨_, (htold e he).2, (h.told_of_ofMembers hread e he).2⟩
  exact hsame ▸ hread

/-- Members tell of a record just if they are accepted. -/
theorem exists_told_iff {ms : List (List Char × Value)} : (∃ x, l.Told ms x) ↔ l.Accepts ms := by
  constructor
  · rintro ⟨x, htold⟩
    exact h.accepts_of_told htold
  · intro haccepts
    obtain ⟨x, hread⟩ := h.exists_of_accepts haccepts
    exact ⟨x, h.told_of_ofMembers hread⟩

/-! ## Arrays -/

theorem names_eq : s.members.map Member.name = l.names := by
  have hnames := congrArg (List.map Prod.fst) h.members
  rwa [List.map_map, List.map_map] at hnames

theorem member?_of_mem {m : Member σ} (hm : m ∈ s.members) : s.member? m.name.toList = some m := by
  have hdistinct : (s.members.map Member.name).Nodup := h.names_eq ▸ l.distinct
  cases hfound : s.member? m.name.toList with
  | none => exact absurd (List.find?_eq_none.1 hfound m hm) (by simp)
  | some m' =>
    obtain ⟨e, -, hname, hlist⟩ := h.entry_of_member? hfound
    have hsame : m'.name = m.name := hname.symm.trans (String.toList_inj.1 hlist).symm
    rw [List.inj_on_of_nodup_map hdistinct (List.mem_of_find?_eq_some hfound) hm hsame]

theorem disjoint {before ms : List (Member σ)} (hmembers : s.members = before ++ ms) :
    (before.map Member.name).Disjoint (ms.map Member.name) := by
  apply List.disjoint_of_nodup_append
  rw [← List.map_append, ← hmembers, h.names_eq]
  exact l.distinct

/-- Where those that were seen are the first of the shape, one of the others is
missing if it is required. -/
theorem isSome_missing? {before ms : List (Member σ)} (hmembers : s.members = before ++ ms) {seen : List String}
    (hseen : ∀ name, name ∈ seen ↔ name ∈ before.map Member.name) :
    (s.missing? seen).isSome = ms.any (·.required) := by
  rw [Bool.eq_iff_iff, Shape.missing?, Option.isSome_map, List.isSome_find?, List.any_eq_true, List.any_eq_true,
    hmembers]
  simp only [Bool.and_eq_true, Bool.not_eq_true', List.contains_eq_mem, decide_eq_false_iff_not, hseen]
  constructor
  · rintro ⟨m, hm, hrequired, hunseen⟩
    refine ⟨m, (List.mem_append.1 hm).resolve_left fun hbefore => ?_, hrequired⟩
    exact hunseen (List.mem_map_of_mem hbefore)
  · rintro ⟨m, hm, hrequired⟩
    refine ⟨m, List.mem_append_right _ hm, hrequired, fun hbefore => ?_⟩
    exact h.disjoint hmembers hbefore (List.mem_map_of_mem hm)

/-- The items of an array are read as members whose names stand in their order. -/
theorem ofItems_eq {before ms : List (Member σ)} (hmembers : s.members = before ++ ms) {seen : List String}
    (hseen : ∀ name, name ∈ seen ↔ name ∈ before.map Member.name) (x : σ) (vs : List Value) :
    Shape.ofItems put ms x vs = if vs.length ≤ ms.length then
      s.ofMembers put seen x ((ms.map fun m => m.name.toList).zip vs) else none := by
  -- Items are taken for the members from the front of the shape, so those seen are always the first ones.
  induction vs generalizing before ms seen x with
  | nil =>
    rw [List.length_nil, if_pos (Nat.zero_le _), List.zip_nil_right, Shape.ofMembers, h.isSome_missing? hmembers hseen]
    cases ms <;> rfl
  | cons v vs ih =>
    cases ms with
    | nil => rfl
    | cons m ms =>
      have hmember := h.member?_of_mem (m := m) (hmembers ▸ List.mem_append_right _ List.mem_cons_self)
      have hunseen : m.name ∉ seen := fun hmem => h.disjoint hmembers ((hseen _).1 hmem) List.mem_cons_self
      simp only [Shape.ofItems, List.length_cons, Nat.succ_le_succ_iff, List.map_cons, List.zip_cons_cons,
        Shape.ofMembers, hmember, List.contains_eq_mem, hunseen, decide_false, Bool.false_eq_true, if_false]
      cases put m.name x v with
      | none => split <;> rfl
      | some x' =>
        have hrest : s.members = before ++ [m] ++ ms := hmembers.trans (List.append_assoc _ [m] ms).symm
        refine ih hrest (fun name => ?_) x'
        rw [List.map_append, List.mem_append, List.mem_cons, hseen, or_comm, List.map_singleton, List.mem_singleton]

/-! ## Values -/

/-- A value is read as the record that its members tell of, whether they are those of
an object or of an array. -/
theorem ofValue_iff {x : σ} {v : Value} :
    s.ofValue put v = some x ↔ ∃ ms, v.membersIn l.names = some ms ∧ l.Told ms x := by
  have hbind : s.ofValue put v = (v.membersIn l.names).bind fun ms => s.ofMembers put [] s.start ms := by
    cases v with
    | array vs =>
      have hitems := h.ofItems_eq (List.nil_append s.members).symm (fun _ => Iff.rfl) s.start vs
      rw [Shape.ofValue, hitems, Value.membersIn, ← h.names_eq, List.length_map, List.map_map]
      split <;> rfl
    | _ => rfl
  simp only [hbind, Option.bind_eq_some_iff, h.ofMembers_iff]

end Layout.Fits

namespace Layout

variable {σ : Type} {l : Layout σ}

/-! ## Members that do not count -/

/-- The members with a name of the layout. -/
def known (l : Layout σ) (ms : List (List Char × Value)) : List (List Char × Value) :=
  ms.filter fun m => decide (m.1 ∈ l.names.map String.toList)

theorem valuesOf_known {e : Entry σ} (he : e ∈ l.entries) (ms : List (List Char × Value)) :
    valuesOf e.name (l.known ms) = valuesOf e.name ms := by
  have hname : e.name.toList ∈ l.names.map String.toList :=
    List.mem_map_of_mem (List.mem_map_of_mem he)
  rw [valuesOf, known, List.filterMap_filter]
  refine List.filterMap_congr fun m _ => ?_
  by_cases hsame : m.1 = e.name.toList
  · simp only [hsame, hname, decide_true, if_true]
  · simp only [hsame, if_false, ite_self]

/-- Members of other names tell nothing, and neither does the order of the others. -/
theorem told_congr {ms ms' : List (List Char × Value)} (hperm : (l.known ms).Perm (l.known ms')) (x : σ) :
    l.Told ms x ↔ l.Told ms' x := by
  refine forall₂_congr fun e he => ?_
  have hvalues : (valuesOf e.name ms).Perm (valuesOf e.name ms') := by
    rw [← valuesOf_known he ms, ← valuesOf_known he ms']
    exact hperm.filterMap _
  rw [hvalues.length_eq]
  refine and_congr_right fun honce => ?_
  -- One value or none is in one order only.
  have hsame : valuesOf e.name ms = valuesOf e.name ms' := by
    match valuesOf e.name ms', honce, hvalues with
    | [], _, hnone => exact hnone.eq_nil
    | [v], _, hone => exact List.perm_singleton.1 hone
  rw [hsame]

end Layout

/-! ## Parts -/

/-- The member is the part `get` of the record: `make` makes it of a value, and it is
`missing` where the member is. -/
structure Entry.IsPart {σ τ : Type} (e : Entry σ) (make : Value → Option τ) (missing : Option τ) (get : σ → τ) :
    Prop where
  required : e.required = missing.isNone
  kind : ∀ v, e.kind v ↔ ∃ t, make v = some t
  value : ∀ v x, e.tells (some v) x ↔ make v = some (get x)
  none : ∀ x, e.tells none x ↔ missing = some (get x)

/-- What is told of one member is one part. -/
theorem Entry.IsPart.determined {σ τ : Type} {e : Entry σ} {make : Value → Option τ} {missing : Option τ}
    {get : σ → τ} (h : e.IsPart make missing get) {x y : σ} (htold : ∃ o, e.tells o x ∧ e.tells o y) :
    get x = get y := by
  obtain ⟨o, hx, hy⟩ := htold
  cases o with
  | none => exact Option.some.inj (((h.none x).1 hx).symm.trans ((h.none y).1 hy))
  | some v => exact Option.some.inj (((h.value v x).1 hx).symm.trans ((h.value v y).1 hy))

/-- A layout of parts fits where each is put into the record by itself, and the record
that is started with has the parts that are missing. -/
theorem Layout.fits_of_parts {σ : Type} {l : Layout σ} {s : Shape σ} {put : String → σ → Value → Option σ}
    (hmembers : s.members.map (fun m => (m.name, m.required)) = l.entries.map fun e => (e.name, e.required))
    (hparts : ∀ e ∈ l.entries, ∃ (τ : Type) (make : Value → Option τ) (missing : Option τ) (get : σ → τ)
      (set : σ → τ → σ), e.IsPart make missing get ∧ missing.getD (get s.start) = get s.start ∧
        (∀ v x, put e.name x v = (make v).map (set x)) ∧ ∀ x t, get (set x t) = t)
    (hother : ∀ e ∈ l.entries, ∀ e' ∈ l.entries, e'.name ≠ e.name → ∀ v x y, put e.name x v = some y →
      ∀ o, e'.tells o y ↔ e'.tells o x) : l.Fits s put where
  members := hmembers
  other := hother
  start e he hoptional := by
    obtain ⟨_, _, missing, _, _, hpart, hstart, -⟩ := hparts e he
    cases missing with
    | none => cases hoptional.symm.trans hpart.required
    | some t => exact (hpart.none _).2 (congrArg some hstart)
  absent e he x hnone := by
    obtain ⟨_, _, _, _, _, hpart, -⟩ := hparts e he
    rw [hpart.required, (hpart.none x).1 hnone, Option.isNone_some]
  kind e he v x htells := by
    obtain ⟨_, _, _, _, _, hpart, -⟩ := hparts e he
    exact (hpart.kind v).2 ⟨_, (hpart.value v x).1 htells⟩
  puts e he v x hkind := by
    obtain ⟨_, _, _, _, _, hpart, -, hput, -⟩ := hparts e he
    obtain ⟨t, hmake⟩ := (hpart.kind v).1 hkind
    exact ⟨_, by rw [hput, hmake, Option.map_some]⟩
  own e he v x y hread := by
    obtain ⟨_, _, _, _, _, hpart, -, hput, hget⟩ := hparts e he
    obtain ⟨t, hmake, rfl⟩ := Option.map_eq_some_iff.1 ((hput v x).symm.trans hread)
    rw [hpart.value, hget, hmake]

end AgentHost.Json
