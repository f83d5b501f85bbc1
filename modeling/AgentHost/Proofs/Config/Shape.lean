import AgentHost.Config
import AgentHost.Proofs.Config.Sections
import Mathlib.Logic.Relation
/-!
# The shape of a configuration

`IsShape` says which trees are configurations, `Describes` what configuration a
tree of that shape is. Neither looks at the order of the entries or at unknown
keys: both are the same for trees that come from each other by `Rearranged`.
-/

namespace AgentHost

namespace Yaml.Tree

/-- The tree is a plain scalar that denotes a number up to the limit. -/
def IsNumber (limit : Nat) (t : Tree) : Prop := ∃ n, t.Denotes n ∧ n ≤ limit

variable {α : Type} {t : Tree} {path : List String} {P : Tree → α → Prop} {unset default x y : α}

/-- `x` is the value at the path where there is one that is set, and else the default. -/
def Settles (t : Tree) (path : List String) (P : Tree → α → Prop) (unset default x : α) : Prop :=
  (∃ v ∈ t.valuesAt path, P v x ∧ x ≠ unset) ∨ ((∀ v ∈ t.valuesAt path, P v unset) ∧ x = default)

/-- There is one way to settle a path with one value at most. -/
theorem Settles.unique (honce : (t.valuesAt path).length ≤ 1) (hp : ∀ v x y, P v x → P v y → x = y)
    (hx : t.Settles path P unset default x) (hy : t.Settles path P unset default y) : x = y := by
  rcases hx with ⟨v, hv, hx, hxset⟩ | ⟨hx, rfl⟩
  · rcases hy with ⟨w, hw, hy, -⟩ | ⟨hy, -⟩
    · obtain ⟨u, hu⟩ := List.length_eq_one_iff.1 (Nat.le_antisymm honce (List.length_pos_of_mem hv))
      rw [hu, List.mem_singleton] at hv hw
      subst hv hw
      exact hp _ _ _ hx hy
    · exact absurd (hp v x unset hx (hy v hv)) hxset
  · rcases hy with ⟨w, hw, hy, hyset⟩ | ⟨-, rfl⟩
    · exact absurd (hp w y unset hy (hx w hw)) hyset
    · rfl

theorem length_valuesAt_cons {name : String} (honce : (t.valuesOf name).length ≤ 1)
    (hrest : ∀ s ∈ t.valuesOf name, (s.valuesAt path).length ≤ 1) : (t.valuesAt (name :: path)).length ≤ 1 := by
  rw [valuesAt]
  cases hvalues : t.valuesOf name with
  | nil => exact Nat.zero_le 1
  | cons s rest =>
    have hnil : rest = [] := List.eq_nil_of_length_eq_zero (by simpa [hvalues] using honce)
    rw [hnil, List.flatMap_singleton]
    exact hrest s (hvalues ▸ List.mem_cons_self)

end Yaml.Tree

namespace Config

open Yaml (Tree)

/-- The known keys of the root. -/
def rootNames : List String := ["server", "data_dir", "agents_dir", "logging"]

/-- The known keys of the server. -/
def serverNames : List String := ["host", "port", "read_timeout", "write_timeout"]

/-- The known keys of logging. -/
def loggingNames : List String := ["level", "format"]

/-- The sections with their known keys. -/
def sections : List (String × List String) := [("server", serverNames), ("logging", loggingNames)]

/-- The paths to the values of the fields. -/
def fieldPaths : List (List String) :=
  [["server", "host"], ["server", "port"], ["server", "read_timeout"], ["server", "write_timeout"], ["data_dir"],
    ["agents_dir"], ["logging", "level"], ["logging", "format"]]

/-- The tree is a configuration: known keys occur at most once and have values of
their kind, and any other key is a scalar. -/
structure IsShape (t : Tree) : Prop where
  root : t.IsSection rootNames
  sections : ∀ p ∈ sections, ∀ s ∈ t.valuesOf p.1, s.IsSection p.2
  texts : ∀ path ∈ [["server", "host"], ["data_dir"], ["agents_dir"], ["logging", "level"]],
    ∀ v ∈ t.valuesAt path, v.IsScalar
  port : ∀ v ∈ t.valuesAt ["server", "port"], v.IsNumber 65535
  timeouts : ∀ path ∈ [["server", "read_timeout"], ["server", "write_timeout"]],
    ∀ v ∈ t.valuesAt path, v.IsNumber 18446744073709551615
  format : ∀ v ∈ t.valuesAt ["logging", "format"],
    v.text? = some "text".toList ∨ v.text? = some "json".toList

/-- The scalar has that text. -/
def IsText (t : Tree) (s : String) : Prop := t.text? = some s.toList

/-- The plain scalar denotes that port. -/
def IsPort (t : Tree) (n : UInt16) : Prop := t.Denotes n.toNat

/-- The plain scalar denotes that many seconds. -/
def IsSeconds (t : Tree) (n : UInt64) : Prop := t.Denotes n.toNat

/-- The scalar is that path. -/
def IsPath (t : Tree) (p : Path) : Prop := ∃ text, t.text? = some text ∧ p.bytes = Text.Utf8.encode text

/-- The scalar is the word for that format. -/
def IsFormat (t : Tree) (f : LogFormat) : Prop :=
  (f = .text ∧ t.text? = some "text".toList) ∨ (f = .json ∧ t.text? = some "json".toList)

/-- Each field is the value of its entry, or its default where the entry is missing
or zero or empty. -/
structure Describes (t : Tree) (c : Config) : Prop where
  host : t.Settles ["server", "host"] IsText "" "0.0.0.0" c.server.host
  port : t.Settles ["server", "port"] IsPort 0 8080 c.server.port
  readTimeout : t.Settles ["server", "read_timeout"] IsSeconds 0 30 c.server.readTimeout
  writeTimeout : t.Settles ["server", "write_timeout"] IsSeconds 0 30 c.server.writeTimeout
  dataDir : t.Settles ["data_dir"] IsPath ⟨[]⟩ (.ofString "./.agnx") c.dataDir
  agentsDir : t.Settles ["agents_dir"] IsPath ⟨[]⟩ (c.dataDir.join (Text.Utf8.ofString "agents")) c.agentsDir
  level : t.Settles ["logging", "level"] IsText "" "info" c.logging.level
  format : t.Settles ["logging", "format"] IsFormat .text .text c.logging.format

/-! ## One configuration for a shape -/

theorem isText_unique (v : Tree) (s s' : String) (h : IsText v s) (h' : IsText v s') : s = s' :=
  String.toList_inj.1 (Option.some.inj (h.symm.trans h'))

theorem isPort_unique (v : Tree) (n n' : UInt16) (h : IsPort v n) (h' : IsPort v n') : n = n' :=
  UInt16.toNat_inj.1 (h.unique h')

theorem isSeconds_unique (v : Tree) (n n' : UInt64) (h : IsSeconds v n) (h' : IsSeconds v n') : n = n' :=
  UInt64.toNat_inj.1 (h.unique h')

theorem isPath_unique (v : Tree) (p p' : Path) (h : IsPath v p) (h' : IsPath v p') : p = p' := by
  obtain ⟨text, htext, hp⟩ := h
  obtain ⟨text', htext', hp'⟩ := h'
  obtain rfl := Option.some.inj (htext.symm.trans htext')
  cases p
  cases p'
  exact congrArg Path.mk (hp.trans hp'.symm)

theorem isFormat_unique (v : Tree) (f f' : LogFormat) (h : IsFormat v f) (h' : IsFormat v f') : f = f' := by
  have hwords : some "text".toList ≠ some "json".toList := by decide
  rcases h with ⟨rfl, h⟩ | ⟨rfl, h⟩
  · rcases h' with ⟨rfl, h'⟩ | ⟨rfl, h'⟩
    · rfl
    · exact absurd (h.symm.trans h') hwords
  · rcases h' with ⟨rfl, h'⟩ | ⟨rfl, h'⟩
    · exact absurd (h'.symm.trans h) hwords
    · rfl

/-- A field stands at a key of the root that is no section, or at a key of a section. -/
theorem fieldPaths_cases {path : List String} (h : path ∈ fieldPaths) :
    (∃ name ∈ rootNames, (∀ p ∈ sections, p.1 ≠ name) ∧ path = [name]) ∨
      ∃ p ∈ sections, ∃ name ∈ p.2, path = [p.1, name] := by
  have hpaths : ∀ path ∈ fieldPaths, (∃ name ∈ rootNames, (∀ p ∈ sections, p.1 ≠ name) ∧ path = [name]) ∨
      ∃ p ∈ sections, ∃ name ∈ p.2, path = [p.1, name] := by decide
  exact hpaths path h

theorem mem_rootNames_of_sections : ∀ p ∈ sections, p.1 ∈ rootNames := by decide

/-- A path of the shape has one value at most. -/
theorem IsShape.once {t : Tree} (h : IsShape t) {path : List String} (hpath : path ∈ fieldPaths) :
    (t.valuesAt path).length ≤ 1 := by
  have hroot : ∀ name ∈ rootNames, (t.valuesAt [name]).length ≤ 1 := by
    intro name hname
    rw [Tree.valuesAt_single]
    exact h.root.once name hname
  have hsection : ∀ p ∈ Config.sections, ∀ name ∈ p.2, (t.valuesAt [p.1, name]).length ≤ 1 := by
    intro p hp name hname
    refine Tree.length_valuesAt_cons (h.root.once _ (mem_rootNames_of_sections p hp)) fun s hs => ?_
    rw [Tree.valuesAt_single]
    exact (h.sections p hp s hs).once name hname
  rcases fieldPaths_cases hpath with ⟨name, hname, -, rfl⟩ | ⟨p, hp, name, hname, rfl⟩
  · exact hroot name hname
  · exact hsection p hp name hname

/-- A tree of the shape describes one configuration at most. -/
theorem Describes.unique {t : Tree} (hshape : IsShape t) {c d : Config} (hc : Describes t c) (hd : Describes t d) :
    c = d := by
  have hhost := hc.host.unique (hshape.once (by decide)) isText_unique hd.host
  have hport := hc.port.unique (hshape.once (by decide)) isPort_unique hd.port
  have hreadtimeout := hc.readTimeout.unique (hshape.once (by decide)) isSeconds_unique hd.readTimeout
  have hwritetimeout := hc.writeTimeout.unique (hshape.once (by decide)) isSeconds_unique hd.writeTimeout
  have hdatadir := hc.dataDir.unique (hshape.once (by decide)) isPath_unique hd.dataDir
  have hagentsdir : c.agentsDir = d.agentsDir := by
    have h := hc.agentsDir
    rw [hdatadir] at h
    exact h.unique (hshape.once (by decide)) isPath_unique hd.agentsDir
  have hlevel := hc.level.unique (hshape.once (by decide)) isText_unique hd.level
  have hformat := hc.format.unique (hshape.once (by decide)) isFormat_unique hd.format
  obtain ⟨⟨_, _, _, _⟩, _, _, ⟨_, _⟩⟩ := c
  obtain ⟨⟨_, _, _, _⟩, _, _, ⟨_, _⟩⟩ := d
  simp only at hhost hport hreadtimeout hwritetimeout hdatadir hagentsdir hlevel hformat
  subst hhost hport hreadtimeout hwritetimeout hdatadir hagentsdir hlevel hformat
  rfl

/-! ## What does not matter -/

/-- The entries in another order, or one more of them: its key is a scalar that is
none of the names, its value any tree. -/
inductive Moved (names : List String) : List (Tree × Tree) → List (Tree × Tree) → Prop
  | order {es es' : List (Tree × Tree)} (h : es.Perm es') : Moved names es es'
  | unknown {before after : List (Tree × Tree)} {key value : Tree} {text : List Char}
    (hkey : key.text? = some text) (htext : ∀ name ∈ names, text ≠ name.toList) :
    Moved names (before ++ after) (before ++ (key, value) :: after)

/-- The entries of the root are moved, or those of a section. -/
inductive Rearranged : Tree → Tree → Prop
  | root {es es' : List (Tree × Tree)} (h : Moved rootNames es es') : Rearranged (.mapping es) (.mapping es')
  | within {name : String} {names : List String} {before after es es' : List (Tree × Tree)} {key : Tree}
    (hname : (name, names) ∈ sections) (hkey : key.text? = some name.toList) (h : Moved names es es') :
    Rearranged (.mapping (before ++ (key, .mapping es) :: after)) (.mapping (before ++ (key, .mapping es') :: after))

/-- The trees are the same as far as their known keys go. -/
structure Alike (names : List String) (t t' : Tree) : Prop where
  isSection : t.IsSection names ↔ t'.IsSection names
  values : ∀ name ∈ names, (t.valuesOf name).Perm (t'.valuesOf name)

theorem isSection_mapping_iff {names : List String} {es es' : List (Tree × Tree)}
    (hkeys : (∀ e ∈ es, e.1.IsScalar) ↔ ∀ e ∈ es', e.1.IsScalar)
    (hlength : ∀ name ∈ names, ((Tree.mapping es).valuesOf name).length = ((Tree.mapping es').valuesOf name).length) :
    (Tree.mapping es).IsSection names ↔ (Tree.mapping es').IsSection names := by
  constructor
  · rintro ⟨-, hscalar, honce⟩
    exact ⟨.inl ⟨es', rfl⟩, hkeys.1 hscalar, fun name hname => hlength name hname ▸ honce name hname⟩
  · rintro ⟨-, hscalar, honce⟩
    exact ⟨.inl ⟨es, rfl⟩, hkeys.2 hscalar, fun name hname => (hlength name hname).symm ▸ honce name hname⟩

theorem valuesOf_own {name : String} {key : Tree} (hkey : key.text? = some name.toList)
    (before after : List (Tree × Tree)) (v : Tree) :
    (Tree.mapping (before ++ (key, v) :: after)).valuesOf name =
      Tree.valuesIn name before ++ v :: Tree.valuesIn name after := by
  rw [Tree.valuesOf_mapping, Tree.valuesIn_append, Tree.valuesIn_cons, if_pos hkey]

theorem valuesOf_other {name : String} {key : Tree} (hkey : key.text? ≠ some name.toList)
    (before after : List (Tree × Tree)) (v : Tree) :
    (Tree.mapping (before ++ (key, v) :: after)).valuesOf name =
      Tree.valuesIn name before ++ Tree.valuesIn name after := by
  rw [Tree.valuesOf_mapping, Tree.valuesIn_append, Tree.valuesIn_cons, if_neg hkey]

theorem Moved.alike {names : List String} {es es' : List (Tree × Tree)} (h : Moved names es es') :
    Alike names (.mapping es) (.mapping es') := by
  cases h with
  | order hperm =>
    have hvalues : ∀ name, ((Tree.mapping es).valuesOf name).Perm ((Tree.mapping es').valuesOf name) :=
      fun name => hperm.filterMap _
    refine ⟨isSection_mapping_iff ?_ fun name _ => (hvalues name).length_eq, fun name _ => hvalues name⟩
    simp only [hperm.mem_iff]
  | @unknown before after key value text hkey htext =>
    have hvalues : ∀ name ∈ names, (Tree.mapping (before ++ after)).valuesOf name =
        (Tree.mapping (before ++ (key, value) :: after)).valuesOf name := by
      intro name hname
      rw [valuesOf_other, Tree.valuesOf_mapping, Tree.valuesIn_append]
      rw [hkey]
      exact fun h => htext name hname (Option.some.inj h)
    refine ⟨isSection_mapping_iff ?_ fun name hname => congrArg _ (hvalues name hname), fun name hname => ?_⟩
    · simp only [List.forall_mem_append, List.forall_mem_cons]
      exact ⟨fun ⟨hbefore, hafter⟩ => ⟨hbefore, ⟨text, hkey⟩, hafter⟩, fun ⟨hbefore, _, hafter⟩ => ⟨hbefore, hafter⟩⟩
    · rw [hvalues name hname]

/-- The trees have the same shape and the same values at the paths of the fields. -/
structure Agree (t t' : Tree) : Prop where
  root : t.IsSection rootNames ↔ t'.IsSection rootNames
  sections : ∀ p ∈ sections, (∀ s ∈ t.valuesOf p.1, s.IsSection p.2) ↔ ∀ s ∈ t'.valuesOf p.1, s.IsSection p.2
  values : ∀ path ∈ fieldPaths, (t.valuesAt path).Perm (t'.valuesAt path)

theorem Alike.agree {t t' : Tree} (h : Alike rootNames t t') : Agree t t' where
  root := h.isSection
  sections := by
    intro p hp
    simp only [(h.values p.1 (mem_rootNames_of_sections p hp)).mem_iff]
  values := by
    intro path hpath
    have hcons : ∀ name ∈ rootNames, ∀ path, (t.valuesAt (name :: path)).Perm (t'.valuesAt (name :: path)) :=
      fun name hname path => (h.values name hname).flatMap_right _
    rcases fieldPaths_cases hpath with ⟨name, hname, -, rfl⟩ | ⟨p, hp, name, -, rfl⟩
    · exact hcons name hname []
    · exact hcons p.1 (mem_rootNames_of_sections p hp) [name]

/-- A section may take the place of another that is like it. -/
theorem Alike.agree_within {name : String} {names : List String} {s s' key : Tree} {before after : List (Tree × Tree)}
    (hname : (name, names) ∈ sections) (hkey : key.text? = some name.toList) (h : Alike names s s') :
    Agree (.mapping (before ++ (key, s) :: after)) (.mapping (before ++ (key, s') :: after)) := by
  have hother : ∀ other ≠ name, (Tree.mapping (before ++ (key, s) :: after)).valuesOf other =
      (Tree.mapping (before ++ (key, s') :: after)).valuesOf other := by
    intro other hne
    rw [valuesOf_other (Tree.text?_ne hkey hne), valuesOf_other (Tree.text?_ne hkey hne)]
  have hnames : ∀ p ∈ sections, p.1 = name → p.2 = names := by
    have hall : ∀ q ∈ sections, ∀ p ∈ sections, p.1 = q.1 → p.2 = q.2 := by decide
    exact hall _ hname
  constructor
  · refine isSection_mapping_iff ?_ fun other _ => ?_
    · simp only [List.forall_mem_append, List.forall_mem_cons]
    · by_cases hsame : other = name
      · subst hsame
        simp only [valuesOf_own hkey, List.length_append, List.length_cons]
      · rw [hother other hsame]
  · intro p hp
    by_cases hsame : p.1 = name
    · rw [hnames p hp hsame, hsame, valuesOf_own hkey, valuesOf_own hkey]
      simp only [List.forall_mem_append, List.forall_mem_cons, h.isSection]
    · rw [hother _ hsame]
  · intro path hpath
    rcases fieldPaths_cases hpath with ⟨field, -, hfield, rfl⟩ | ⟨p, hp, field, hfield, rfl⟩
    · rw [Tree.valuesAt_single, Tree.valuesAt_single, hother field fun hsame => hfield _ hname hsame.symm]
    · simp only [Tree.valuesAt]
      by_cases hsame : p.1 = name
      · rw [hnames p hp hsame] at hfield
        rw [hsame, valuesOf_own hkey, valuesOf_own hkey, List.flatMap_append, List.flatMap_append, List.flatMap_cons,
          List.flatMap_cons]
        exact (((h.values field hfield).flatMap_right _).append_right _).append_left _
      · rw [hother _ hsame]

theorem Rearranged.agree {t t' : Tree} (h : Rearranged t t') : Agree t t' := by
  cases h with
  | root h => exact h.alike.agree
  | within hname hkey h => exact h.alike.agree_within hname hkey

theorem Agree.symm {t t' : Tree} (h : Agree t t') : Agree t' t where
  root := h.root.symm
  sections := fun p hp => (h.sections p hp).symm
  values := fun path hpath => (h.values path hpath).symm

theorem Agree.isShape {t t' : Tree} (h : Agree t t') (hshape : IsShape t) : IsShape t' := by
  have hmem : ∀ path ∈ fieldPaths, ∀ v, v ∈ t'.valuesAt path → v ∈ t.valuesAt path :=
    fun path hpath v => (h.values path hpath).mem_iff.2
  have htexts : ∀ path ∈ [["server", "host"], ["data_dir"], ["agents_dir"], ["logging", "level"]],
      path ∈ fieldPaths := by decide
  have htimeouts : ∀ path ∈ [["server", "read_timeout"], ["server", "write_timeout"]], path ∈ fieldPaths := by
    decide
  exact {
    root := h.root.1 hshape.root
    sections := fun p hp => (h.sections p hp).1 (hshape.sections p hp)
    texts := fun path hpath v hv => hshape.texts path hpath v (hmem path (htexts path hpath) v hv)
    port := fun v hv => hshape.port v (hmem _ (by decide) v hv)
    timeouts := fun path hpath v hv => hshape.timeouts path hpath v (hmem path (htimeouts path hpath) v hv)
    format := fun v hv => hshape.format v (hmem _ (by decide) v hv) }

theorem Agree.settles {α : Type} {t t' : Tree} (h : Agree t t') {path : List String} (hpath : path ∈ fieldPaths)
    {P : Tree → α → Prop} {unset default x : α} (hsettles : t.Settles path P unset default x) :
    t'.Settles path P unset default x := by
  unfold Tree.Settles at *
  simpa only [(h.values path hpath).mem_iff] using hsettles

theorem Agree.describes {t t' : Tree} (h : Agree t t') {c : Config} (hc : Describes t c) : Describes t' c where
  host := h.settles (by decide) hc.host
  port := h.settles (by decide) hc.port
  readTimeout := h.settles (by decide) hc.readTimeout
  writeTimeout := h.settles (by decide) hc.writeTimeout
  dataDir := h.settles (by decide) hc.dataDir
  agentsDir := h.settles (by decide) hc.agentsDir
  level := h.settles (by decide) hc.level
  format := h.settles (by decide) hc.format

/-- Rearranging, as often as one likes, changes neither the shape nor what is described. -/
theorem rearranged_iff {t t' : Tree} (h : Relation.EqvGen Rearranged t t') (c : Config) :
    IsShape t ∧ Describes t c ↔ IsShape t' ∧ Describes t' c := by
  induction h with
  | rel t t' h =>
    have hagree := h.agree
    exact ⟨fun ⟨hshape, hc⟩ => ⟨hagree.isShape hshape, hagree.describes hc⟩,
      fun ⟨hshape, hc⟩ => ⟨hagree.symm.isShape hshape, hagree.symm.describes hc⟩⟩
  | refl t => exact Iff.rfl
  | symm t t' _ ih => exact ih.symm
  | trans t t' t'' _ _ ih ih' => exact ih.trans ih'

end Config

end AgentHost
