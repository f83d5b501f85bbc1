import AgentHost.Proofs.Yaml.Numerals
import AgentHost.Proofs.Yaml.Whole
/-!
# What a document says

A `Tree` is a document without its places: mappings, sequences and scalars. A
document of one part and without a fault, in which nothing has a tag or an anchor
and nothing is an alias, is such a tree (`Document.Bare.exists_tree`).

A mapping is looked at by the texts of its keys: `valuesOf` are the values at a
key, `valuesAt` those at a path of keys, in the order of the text.
-/

namespace AgentHost.Yaml

/-- A document without its places. -/
inductive Tree where
  | scalar (text : List Char) (style : Style)
  | sequence (items : List Tree)
  | mapping (entries : List (Tree × Tree))
  deriving Inhabited

/-! ## From nodes to trees -/

namespace Node

mutual

/-- The tree of a node, if it has no tags, anchors, aliases and gaps. -/
def tree? : Node → Option Tree
  | .scalar _ none none text style => some (.scalar text style)
  | .sequence _ none none items => (trees? items).map .sequence
  | .mapping _ none none entries => (entryTrees? entries).map .mapping
  | _ => none

/-- The trees of some nodes. -/
def trees? : List Node → Option (List Tree)
  | [] => some []
  | n :: rest => n.tree?.bind fun t => (trees? rest).map fun ts => t :: ts

/-- The trees of some keys and values. -/
def entryTrees? : List (Node × Node) → Option (List (Tree × Tree))
  | [] => some []
  | (k, v) :: rest =>
    k.tree?.bind fun key => v.tree?.bind fun value => (entryTrees? rest).map fun ts => (key, value) :: ts

end

mutual

/-- Nothing has a tag or an anchor, and nothing is an alias. -/
def isBare : Node → Bool
  | .scalar _ anchor tag _ _ => anchor.isNone && tag.isNone
  | .sequence _ anchor tag items => anchor.isNone && tag.isNone && areBare items
  | .mapping _ anchor tag entries => anchor.isNone && tag.isNone && entriesAreBare entries
  | .alias .. => false
  | .broken => true

/-- Nothing in any of the trees has a tag or an anchor or is an alias. -/
def areBare : List Node → Bool
  | [] => true
  | n :: rest => n.isBare && areBare rest

/-- Nothing in any key or value has a tag or an anchor or is an alias. -/
def entriesAreBare : List (Node × Node) → Bool
  | [] => true
  | (k, v) :: rest => k.isBare && v.isBare && entriesAreBare rest

end

mutual

theorem exists_tree {n : Node} (hbare : n.isBare = true) (hwhole : n.isWhole = true) : ∃ t, n.tree? = some t := by
  match n with
  | .scalar mark anchor tag text style =>
    simp only [isBare, Bool.and_eq_true, Option.isNone_iff_eq_none] at hbare
    obtain ⟨rfl, rfl⟩ := hbare
    exact ⟨_, rfl⟩
  | .sequence mark anchor tag items =>
    simp only [isBare, Bool.and_eq_true, Option.isNone_iff_eq_none] at hbare
    obtain ⟨⟨rfl, rfl⟩, hitems⟩ := hbare
    obtain ⟨ts, hts⟩ := exists_trees hitems hwhole
    exact ⟨.sequence ts, by rw [tree?, hts]; rfl⟩
  | .mapping mark anchor tag entries =>
    simp only [isBare, Bool.and_eq_true, Option.isNone_iff_eq_none] at hbare
    obtain ⟨⟨rfl, rfl⟩, hentries⟩ := hbare
    obtain ⟨ts, hts⟩ := exists_entryTrees hentries hwhole
    exact ⟨.mapping ts, by rw [tree?, hts]; rfl⟩
  | .alias mark slot => cases hbare
  | .broken => cases hwhole

theorem exists_trees {ns : List Node} (hbare : areBare ns = true) (hwhole : areWhole ns = true) :
    ∃ ts, trees? ns = some ts := by
  cases ns with
  | nil => exact ⟨[], rfl⟩
  | cons n rest =>
    simp only [areBare, areWhole, Bool.and_eq_true] at hbare hwhole
    obtain ⟨t, ht⟩ := exists_tree hbare.1 hwhole.1
    obtain ⟨ts, hts⟩ := exists_trees hbare.2 hwhole.2
    exact ⟨t :: ts, by rw [trees?, ht, hts]; rfl⟩

theorem exists_entryTrees {es : List (Node × Node)} (hbare : entriesAreBare es = true)
    (hwhole : entriesAreWhole es = true) : ∃ ts, entryTrees? es = some ts := by
  match es with
  | [] => exact ⟨[], rfl⟩
  | (k, v) :: rest =>
    simp only [entriesAreBare, entriesAreWhole, Bool.and_eq_true] at hbare hwhole
    obtain ⟨key, hkey⟩ := exists_tree hbare.1.1 hwhole.1.1
    obtain ⟨value, hvalue⟩ := exists_tree hbare.1.2 hwhole.1.2
    obtain ⟨ts, hts⟩ := exists_entryTrees hbare.2 hwhole.2
    exact ⟨(key, value) :: ts, by rw [entryTrees?, hkey, hvalue, hts]; rfl⟩

end

theorem entryTrees?_cons {k v : Node} {rest : List (Node × Node)} {ts : List (Tree × Tree)}
    (h : entryTrees? ((k, v) :: rest) = some ts) :
    ∃ key value more, k.tree? = some key ∧ v.tree? = some value ∧ entryTrees? rest = some more ∧
      ts = (key, value) :: more := by
  rw [entryTrees?] at h
  obtain ⟨key, hkey, h⟩ := Option.bind_eq_some_iff.1 h
  obtain ⟨value, hvalue, h⟩ := Option.bind_eq_some_iff.1 h
  obtain ⟨more, hmore, rfl⟩ := Option.map_eq_some_iff.1 h
  exact ⟨key, value, more, hkey, hvalue, hmore, rfl⟩

/-- A node with a tree is what the tree is. -/
theorem tree?_cases {n : Node} {t : Tree} (h : n.tree? = some t) :
    (∃ mark text style, n = .scalar mark none none text style ∧ t = .scalar text style) ∨
    (∃ mark items ts, n = .sequence mark none none items ∧ trees? items = some ts ∧ t = .sequence ts) ∨
    (∃ mark entries es, n = .mapping mark none none entries ∧ entryTrees? entries = some es ∧ t = .mapping es) := by
  unfold tree? at h
  split at h
  case h_1 mark text style => exact .inl ⟨mark, text, style, rfl, (Option.some.inj h).symm⟩
  case h_2 mark items =>
    obtain ⟨ts, hts, rfl⟩ := Option.map_eq_some_iff.1 h
    exact .inr (.inl ⟨mark, items, ts, rfl, hts, rfl⟩)
  case h_3 mark entries =>
    obtain ⟨es, hes, rfl⟩ := Option.map_eq_some_iff.1 h
    exact .inr (.inr ⟨mark, entries, es, rfl, hes, rfl⟩)
  case h_4 => cases h

mutual

/-- A node with a tree has no gap. -/
theorem isWhole_of_tree {n : Node} {t : Tree} (h : n.tree? = some t) : n.isWhole = true := by
  rcases tree?_cases h with ⟨_, _, _, rfl, -⟩ | ⟨_, _, _, rfl, hitems, -⟩ | ⟨_, _, _, rfl, hentries, -⟩
  · rfl
  · exact areWhole_of_trees hitems
  · exact entriesAreWhole_of_trees hentries

theorem areWhole_of_trees {ns : List Node} {ts : List Tree} (h : trees? ns = some ts) : areWhole ns = true := by
  cases ns with
  | nil => rfl
  | cons n rest =>
    rw [trees?] at h
    obtain ⟨t, ht, h⟩ := Option.bind_eq_some_iff.1 h
    obtain ⟨more, hmore, -⟩ := Option.map_eq_some_iff.1 h
    rw [areWhole, isWhole_of_tree ht, areWhole_of_trees hmore]
    rfl

theorem entriesAreWhole_of_trees {es : List (Node × Node)} {ts : List (Tree × Tree)}
    (h : entryTrees? es = some ts) : entriesAreWhole es = true := by
  match es with
  | [] => rfl
  | (k, v) :: rest =>
    obtain ⟨key, value, more, hkey, hvalue, hmore, -⟩ := entryTrees?_cons h
    rw [entriesAreWhole, isWhole_of_tree hkey, isWhole_of_tree hvalue, entriesAreWhole_of_trees hmore]
    rfl

end

end Node

/-- A document of one part and without a fault, tags, anchors and aliases. -/
structure Document.Bare (d : Document) : Prop where
  fault : d.fault = none
  single : d.more = false
  root : d.root.isBare = true

theorem Document.Bare.exists_tree {text : List Char} (h : (Document.ofText text).Bare) :
    ∃ t, (Document.ofText text).root.tree? = some t :=
  Node.exists_tree h.root ((Document.whole_ofText text).whole h.fault)

/-! ## Looking into a tree -/

namespace Tree

/-- The text of a scalar. -/
def text? : Tree → Option (List Char)
  | .scalar text _ => some text
  | _ => none

/-- A key has one name at most. -/
theorem text?_ne {key : Tree} {name other : String} (h : key.text? = some name.toList) (hne : other ≠ name) :
    key.text? ≠ some other.toList := by
  intro hother
  rw [h] at hother
  exact hne (String.toList_inj.1 (Option.some.inj hother)).symm

/-- The tree is a scalar of any style. -/
def IsScalar (t : Tree) : Prop := ∃ text, t.text? = some text

/-- The tree is a plain scalar that denotes the number. -/
def Denotes (t : Tree) (n : Nat) : Prop := ∃ text, t = .scalar text .plain ∧ Scalar.Denotes text n

theorem Denotes.unique {t : Tree} {n m : Nat} (hn : t.Denotes n) (hm : t.Denotes m) : n = m := by
  obtain ⟨text, rfl, hn⟩ := hn
  obtain ⟨_, htext, hm⟩ := hm
  cases htext
  have h := Scalar.unsigned?_iff.2 hn
  rw [Scalar.unsigned?_iff.2 hm] at h
  exact (Option.some.inj h).symm

/-- The entries of a mapping; anything else has none. -/
def entries : Tree → List (Tree × Tree)
  | .mapping es => es
  | _ => []

/-- The values of the entries whose key has that text. -/
def valuesIn (name : String) (es : List (Tree × Tree)) : List Tree :=
  es.filterMap fun e => if e.1.text? = some name.toList then some e.2 else none

theorem valuesIn_cons (name : String) (k v : Tree) (es : List (Tree × Tree)) :
    valuesIn name ((k, v) :: es) =
      if k.text? = some name.toList then v :: valuesIn name es else valuesIn name es := by
  unfold valuesIn
  rw [List.filterMap_cons]
  split <;> simp_all

theorem valuesIn_append (name : String) (es es' : List (Tree × Tree)) :
    valuesIn name (es ++ es') = valuesIn name es ++ valuesIn name es' :=
  List.filterMap_append

/-- The values at a key of the tree. -/
def valuesOf (t : Tree) (name : String) : List Tree := valuesIn name t.entries

theorem valuesOf_mapping (name : String) (es : List (Tree × Tree)) :
    (mapping es).valuesOf name = valuesIn name es := rfl

/-- The values at a path of keys. -/
def valuesAt (t : Tree) : List String → List Tree
  | [] => [t]
  | name :: path => (t.valuesOf name).flatMap fun v => v.valuesAt path

theorem valuesAt_single (t : Tree) (name : String) : t.valuesAt [name] = t.valuesOf name := by
  simp [valuesAt]

theorem mem_valuesAt_cons {t v : Tree} {name : String} {path : List String} :
    v ∈ t.valuesAt (name :: path) ↔ ∃ s ∈ t.valuesOf name, v ∈ s.valuesAt path := List.mem_flatMap

theorem forall_valuesAt_pair {t : Tree} {name key : String} {Q : Tree → Prop} :
    (∀ v ∈ t.valuesAt [name, key], Q v) ↔ ∀ s ∈ t.valuesOf name, ∀ v ∈ s.valuesOf key, Q v := by
  simp only [mem_valuesAt_cons, valuesAt_single]
  exact ⟨fun h s hs v hv => h v ⟨s, hs, hv⟩, fun h v ⟨s, hs, hv⟩ => h s hs v hv⟩

/-- The tree may be read as a section with these known keys: it is a mapping or
empty, its keys are scalars, and no known key occurs twice. -/
structure IsSection (names : List String) (t : Tree) : Prop where
  form : (∃ es, t = .mapping es) ∨ t = .scalar [] .plain
  keys : ∀ e ∈ t.entries, e.1.IsScalar
  once : ∀ name ∈ names, (t.valuesOf name).length ≤ 1

end Tree

end AgentHost.Yaml
