import AgentHost.Path
import Mathlib.Logic.Relation
/-!
# The components of a path

Two paths are the same where their components are. `same_iff_respelled` says what
that leaves out: a slash more behind a slash, a `.` that is not at the start, and a
slash at the end. A name that is joined to a path is one component more.
-/

namespace AgentHost.Path

open Text (Bytes)

/-! ## Parts between slashes -/

theorem cut_eq_splitOn (bytes : Bytes) : cut bytes = bytes.splitOn slash := by
  induction bytes with
  | nil => rfl
  | cons b rest ih =>
    rw [List.splitOn, List.splitOnP_cons_eq_if_modifyHead, ← List.splitOn, ← ih, cut]
    by_cases hb : b = slash
    · simp [hb]
    · rw [if_neg hb, if_neg (by simpa using hb)]
      cases hcut : cut rest with
      | nil => exact absurd (ih.symm.trans hcut) (List.splitOnP_ne_nil _ _)
      | cons first more => rfl

theorem exists_cut (bytes : Bytes) : ∃ first rest, cut bytes = first :: rest := by
  rw [cut_eq_splitOn]
  exact List.exists_cons_of_ne_nil (List.splitOnP_ne_nil _ _)

theorem cut_append_slash (a b : Bytes) : cut (a ++ slash :: b) = cut a ++ cut b := by
  simp only [cut_eq_splitOn, List.splitOn]
  exact List.splitOnP_append_cons a b (beq_self_eq_true slash)

theorem cut_of_not_mem {part : Bytes} (h : slash ∉ part) : cut part = [part] := by
  rw [cut_eq_splitOn]
  refine List.splitOnP_eq_singleton fun b hb => beq_eq_false_iff_ne.2 ?_
  rintro rfl
  exact h hb

theorem intercalate_cut (bytes : Bytes) : [slash].intercalate (cut bytes) = bytes := by
  rw [cut_eq_splitOn]
  exact List.intercalate_splitOn slash

/-! ## Components -/

/-- The components of the parts between slashes. -/
def steps (bytes : Bytes) : List Component := (cut bytes).filterMap component?

/-- The component of how a path starts. -/
def lead (bytes : Bytes) : List Component :=
  if bytes.head? = some slash then [.root]
  else if (cut bytes).head? = some [dot] then [.current]
  else []

theorem components_eq (p : Path) : p.components = lead p.bytes ++ steps p.bytes := rfl

theorem steps_append_slash (a b : Bytes) : steps (a ++ slash :: b) = steps a ++ steps b := by
  rw [steps, cut_append_slash, List.filterMap_append]
  rfl

@[simp] theorem steps_nil : steps [] = [] := rfl

@[simp] theorem steps_dot : steps [dot] = [] := rfl

@[simp] theorem steps_slash (b : Bytes) : steps (slash :: b) = steps b := steps_append_slash [] b

/-- What stands behind a slash does not change how a path starts. -/
theorem lead_append_slash (a b : Bytes) : lead (a ++ slash :: b) = lead (a ++ [slash]) := by
  have hcut : ∀ b, (cut (a ++ slash :: b)).head? = (cut a).head? := by
    intro b
    obtain ⟨first, rest, hfirst⟩ := exists_cut a
    rw [cut_append_slash, hfirst]
    rfl
  simp only [lead, hcut, List.head?_append, List.head?_cons]

theorem lead_slash_end {a : Bytes} (h : a ≠ []) : lead (a ++ [slash]) = lead a := by
  obtain ⟨first, rest, hfirst⟩ := exists_cut a
  obtain ⟨b, more, rfl⟩ := List.exists_cons_of_ne_nil h
  rw [lead, lead, cut_append_slash, hfirst]
  rfl

theorem components_append_slash (a b : Bytes) :
    components ⟨a ++ slash :: b⟩ = components ⟨a ++ [slash]⟩ ++ steps b := by
  simp only [components_eq, steps_append_slash, lead_append_slash a b, steps_nil, List.append_nil, List.append_assoc]

theorem components_slash_end {a : Bytes} (h : a ≠ []) : components ⟨a ++ [slash]⟩ = components ⟨a⟩ := by
  simp only [components_eq, steps_append_slash, lead_slash_end h, steps_nil, List.append_nil]

/-! ## A name joined to a path -/

/-- The bytes are the name of one file or directory. -/
structure IsName (name : Bytes) : Prop where
  slash : slash ∉ name
  empty : name ≠ []
  current : name ≠ [dot]
  parent : name ≠ [dot, dot]

theorem IsName.steps {name : Bytes} (h : IsName name) : steps name = [.name name] := by
  rw [Path.steps, cut_of_not_mem h.slash, List.filterMap_cons, component?, if_neg (by simp [h.empty, h.current]),
    if_neg h.parent]
  rfl

theorem IsName.lead {name : Bytes} (h : IsName name) : lead name = [] := by
  have hhead : name.head? ≠ some Path.slash := fun hslash => h.slash (List.mem_of_mem_head? hslash)
  rw [Path.lead, if_neg hhead, cut_of_not_mem h.slash, List.head?_cons, if_neg fun hdot => h.current (Option.some.inj hdot)]

theorem components_join {name : Bytes} (h : IsName name) (p : Path) :
    (p.join name).components = p.components ++ [.name name] := by
  obtain ⟨bytes⟩ := p
  unfold join
  simp only
  split
  case isTrue hempty =>
    subst hempty
    rw [components_eq, h.lead, h.steps]
    rfl
  case isFalse hsome =>
    split
    case isTrue hslash =>
      obtain ⟨a, rfl⟩ := List.getLast?_eq_some_iff.1 hslash
      rw [List.append_assoc, List.singleton_append, components_append_slash, h.steps]
    case isFalse => rw [components_append_slash, components_slash_end hsome, h.steps]

/-- A name is set behind the bytes of a path, with one slash between them. -/
theorem bytes_join {p : Path} (h : p.bytes ≠ []) (name : Bytes) :
    (p.join name).bytes = p.bytes ++ (if p.bytes.getLast? = some slash then [] else [slash]) ++ name := by
  rw [join, if_neg h]
  split <;> simp

/-! ## The bytes of components -/

/-- The part that a component is written as. -/
def Component.part : Component → Bytes
  | .root => []
  | .current => [dot]
  | .parent => [dot, dot]
  | .name bytes => bytes

theorem component?_cases (part : Bytes) :
    (component? part = none ∧ (part = [] ∨ part = [dot])) ∨
      ∃ c, component? part = some c ∧ c ≠ .root ∧ c.part = part := by
  unfold component?
  split
  case isTrue hnone => exact .inl ⟨rfl, hnone⟩
  case isFalse =>
    split
    case isTrue hparent => exact .inr ⟨.parent, rfl, Component.noConfusion, hparent.symm⟩
    case isFalse => exact .inr ⟨.name part, rfl, Component.noConfusion, rfl⟩

/-- A path that has a first part has a component that is written as that part. -/
theorem components_relative {bytes first : Bytes} {rest : List Bytes} (hcut : cut bytes = first :: rest)
    (hfirst : first ≠ []) :
    ∃ c, c ≠ .root ∧ c.part = first ∧ components ⟨bytes⟩ = c :: rest.filterMap component? := by
  have hslash : bytes.head? ≠ some slash := by
    intro hslash
    obtain ⟨more, rfl⟩ := List.head?_eq_some_iff.1 hslash
    rw [cut, if_pos rfl] at hcut
    exact hfirst (List.cons.inj hcut).1.symm
  rw [components_eq, lead, steps, if_neg hslash, hcut, List.head?_cons, List.filterMap_cons]
  rcases component?_cases first with ⟨hnone, rfl | rfl⟩ | ⟨c, hsome, hroot, hpart⟩
  · exact absurd rfl hfirst
  · exact ⟨.current, Component.noConfusion, rfl, by rw [hnone, if_pos rfl]; rfl⟩
  · refine ⟨c, hroot, hpart, ?_⟩
    have hdot : first ≠ [dot] := by
      rintro rfl
      cases hsome
    rw [hsome, if_neg fun h => hdot (Option.some.inj h)]
    rfl

/-- A path without a first part is empty or starts at the root. -/
theorem components_absolute {bytes : Bytes} {rest : List Bytes} (hcut : cut bytes = [] :: rest) :
    bytes = [] ∧ rest = [] ∨
      bytes = slash :: [slash].intercalate rest ∧ components ⟨bytes⟩ = .root :: rest.filterMap component? := by
  cases bytes with
  | nil => exact .inl ⟨rfl, (List.cons.inj hcut).2.symm⟩
  | cons b more =>
    by_cases hb : b = slash
    · subst hb
      rw [cut, if_pos rfl] at hcut
      obtain rfl := (List.cons.inj hcut).2
      refine .inr ⟨by rw [intercalate_cut], ?_⟩
      rw [components_eq, steps_slash]
      rfl
    · rw [cut, if_neg hb] at hcut
      split at hcut <;> cases (List.cons.inj hcut).1

/-- Only the empty path has no components. -/
theorem components_eq_nil_iff {p : Path} : p.components = [] ↔ p.bytes = [] := by
  obtain ⟨bytes⟩ := p
  constructor
  · intro h
    obtain ⟨first, rest, hcut⟩ := exists_cut bytes
    by_cases hfirst : first = []
    · subst hfirst
      rcases components_absolute hcut with ⟨hempty, -⟩ | ⟨-, hroot⟩
      · exact hempty
      · rw [h] at hroot
        cases hroot
    · obtain ⟨c, -, -, hcomponents⟩ := components_relative hcut hfirst
      rw [h] at hcomponents
      cases hcomponents
  · rintro rfl
    rfl

/-! ## What does not count -/

/-- The second path is the first without a slash or a `.` that does not count. -/
inductive Respelled : Path → Path → Prop
  | slashes (a b : Bytes) : Respelled ⟨a ++ slash :: slash :: b⟩ ⟨a ++ slash :: b⟩
  | innerDot (a b : Bytes) : Respelled ⟨a ++ slash :: dot :: slash :: b⟩ ⟨a ++ slash :: b⟩
  | lastDot (a : Bytes) : Respelled ⟨a ++ [slash, dot]⟩ ⟨a ++ [slash]⟩
  | lastSlash {a : Bytes} (h : a ≠ []) : Respelled ⟨a ++ [slash]⟩ ⟨a⟩

theorem Respelled.components_eq {p q : Path} (h : Respelled p q) : p.components = q.components := by
  cases h with
  | slashes a b => rw [components_append_slash, steps_slash, ← components_append_slash]
  | innerDot a b =>
    have hdot : steps (dot :: slash :: b) = steps b := steps_append_slash [dot] b
    rw [components_append_slash, hdot, ← components_append_slash]
  | lastDot a => rw [components_append_slash, steps_dot, List.append_nil]
  | lastSlash h => exact components_slash_end h

/-- The shortest path with these components. -/
def ofComponents : List Component → Path
  | .root :: cs => ⟨slash :: [slash].intercalate (cs.map Component.part)⟩
  | cs => ⟨[slash].intercalate (cs.map Component.part)⟩

theorem ofComponents_of_ne_root {c : Component} (h : c ≠ .root) (cs : List Component) :
    ofComponents (c :: cs) = ⟨[slash].intercalate (c.part :: cs.map Component.part)⟩ := by
  cases c with
  | root => exact absurd rfl h
  | _ => rfl

open Relation (EqvGen)

/-- A slash behind a path that nothing follows does not count. -/
theorem respelled_front {a : Bytes} (h : a ≠ []) (parts : List Bytes) :
    EqvGen Respelled ⟨a ++ slash :: [slash].intercalate parts⟩ ⟨[slash].intercalate (a :: parts)⟩ := by
  cases parts with
  | nil =>
    rw [List.intercalate_nil, List.intercalate_singleton]
    exact .rel _ _ (.lastSlash h)
  | cons part more =>
    rw [List.intercalate_cons_cons, List.append_assoc, List.singleton_append]
    exact .refl _

theorem intercalate_behind (a part : Bytes) (parts : List Bytes) :
    [slash].intercalate ((a ++ slash :: part) :: parts) = a ++ slash :: [slash].intercalate (part :: parts) := by
  cases parts with
  | nil => rw [List.intercalate_singleton, List.intercalate_singleton]
  | cons next more => simp [List.intercalate_cons_cons]

/-- Behind a slash only the parts with a component count. -/
theorem respelled_behind (a : Bytes) (parts : List Bytes) :
    EqvGen Respelled ⟨a ++ slash :: [slash].intercalate parts⟩
      ⟨a ++ slash :: [slash].intercalate ((parts.filterMap component?).map Component.part)⟩ := by
  -- A part without a component goes together with the slash behind it. One with a component joins what
  -- stands in front.
  induction parts generalizing a with
  | nil => exact .refl _
  | cons part more ih =>
    cases hmore : more with
    | nil =>
      rw [List.intercalate_singleton]
      rcases component?_cases part with ⟨hnone, rfl | rfl⟩ | ⟨c, hsome, -, hpart⟩
      · exact .refl _
      · exact .rel _ _ (.lastDot a)
      · rw [List.filterMap_cons_some hsome, List.filterMap_nil, List.map_cons, List.map_nil,
          List.intercalate_singleton, hpart]
        exact .refl _
    | cons next others =>
      rw [← hmore, List.intercalate_cons_of_ne_nil (by simp [hmore])]
      rcases component?_cases part with ⟨hnone, rfl | rfl⟩ | ⟨c, hsome, -, hpart⟩
      · rw [List.filterMap_cons_none hnone]
        exact .trans _ _ _ (.rel _ _ (.slashes a _)) (ih a)
      · rw [List.filterMap_cons_none hnone]
        exact .trans _ _ _ (.rel _ _ (.innerDot a _)) (ih a)
      · rw [List.filterMap_cons_some hsome, List.map_cons, hpart]
        have hmore := ih (a ++ slash :: part)
        have hfront := respelled_front (a := a ++ slash :: part) (by simp) ((more.filterMap component?).map Component.part)
        rw [intercalate_behind] at hfront
        simpa using hmore.trans _ _ _ hfront

/-- Every path is spelled like the shortest one with its components. -/
theorem respelled_ofComponents (p : Path) : EqvGen Respelled p (ofComponents p.components) := by
  obtain ⟨bytes⟩ := p
  obtain ⟨first, rest, hcut⟩ := exists_cut bytes
  by_cases hfirst : first = []
  · subst hfirst
    rcases components_absolute hcut with ⟨rfl, -⟩ | ⟨hbytes, hcomponents⟩
    · exact .refl _
    · rw [hcomponents, hbytes]
      exact respelled_behind [] rest
  · obtain ⟨c, hroot, hpart, hcomponents⟩ := components_relative hcut hfirst
    rw [hcomponents, ofComponents_of_ne_root hroot, hpart]
    have hbytes : bytes = [slash].intercalate (first :: rest) := by rw [← hcut, intercalate_cut]
    cases rest with
    | nil =>
      rw [hbytes]
      exact .refl _
    | cons part more =>
      rw [hbytes, List.intercalate_cons_cons, List.append_assoc, List.singleton_append]
      exact .trans _ _ _ (respelled_behind first (part :: more)) (respelled_front hfirst _)

theorem same_iff {p q : Path} : p.same q = true ↔ p.components = q.components := beq_iff_eq

/-- Paths are the same exactly where one becomes the other by slashes and dots that
do not count. -/
theorem same_iff_respelled {p q : Path} : p.same q = true ↔ EqvGen Respelled p q := by
  rw [same_iff]
  constructor
  · intro h
    have hp := respelled_ofComponents p
    rw [h] at hp
    exact hp.trans _ _ _ ((respelled_ofComponents q).symm _ _)
  · intro h
    induction h with
    | rel _ _ h => exact h.components_eq
    | refl _ => rfl
    | symm _ _ _ ih => exact ih.symm
    | trans _ _ _ _ _ ih ih' => exact ih.trans ih'

end AgentHost.Path
