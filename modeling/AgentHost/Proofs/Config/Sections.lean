import AgentHost.Proofs.Except
import AgentHost.Proofs.Yaml.Tree
/-!
# Sections are read by their known keys

What a section makes of a tree depends on the values at its known keys alone.
`readSection_isOk_iff` says which trees are accepted, `readSection_observes` what a
part of the result is that one field decides. Both come from one inversion of a
step (`readEntries_cons_iff`) by induction on the entries.
-/

namespace AgentHost.Config

open Yaml

variable {root n : Node} {t : Tree} {trail : Trail}

/-! ## Values -/

theorem follow_of_tree (h : n.tree? = some t) : Place.follow root ⟨trail, n⟩ = ⟨trail, n⟩ := by
  rcases Node.tree?_cases h with ⟨_, _, _, rfl, -⟩ | ⟨_, _, _, rfl, -⟩ | ⟨_, _, _, rfl, -⟩ <;> rfl

theorem wrongKind_ne_ok {α : Type} (p : Place) (expected : Expected) (a : α) : wrongKind p expected ≠ .ok a := by
  intro h
  unfold wrongKind refuse at h
  split at h <;> cases h

/-- The text of a scalar is read, whatever its style, and of nothing else. -/
theorem readText_iff (h : n.tree? = some t) {expected : Expected} {text : List Char} :
    readText root expected ⟨trail, n⟩ = .ok text ↔ t.text? = some text := by
  simp only [readText, follow_of_tree h]
  rcases Node.tree?_cases h with ⟨_, _, _, rfl, rfl⟩ | ⟨_, _, _, rfl, -, rfl⟩ | ⟨_, _, _, rfl, -, rfl⟩
  · exact ⟨fun h => congrArg some (Except.ok.inj h), fun h => congrArg Except.ok (Option.some.inj h)⟩
  · exact ⟨fun h => absurd h (wrongKind_ne_ok _ _ _), fun h => nomatch h⟩
  · exact ⟨fun h => absurd h (wrongKind_ne_ok _ _ _), fun h => nomatch h⟩

theorem maybeNumber_none_iff {style : Style} : maybeNumber none style = true ↔ style = .plain := by
  cases style <;> decide

/-- A number is read from a plain scalar that denotes it, up to the limit. -/
theorem readNat_iff (h : n.tree? = some t) {expected : Expected} {limit k : Nat} :
    readNat root expected limit ⟨trail, n⟩ = .ok k ↔ t.Denotes k ∧ k ≤ limit := by
  simp only [readNat, follow_of_tree h]
  rcases Node.tree?_cases h with ⟨_, text, style, rfl, rfl⟩ | ⟨_, _, _, rfl, -, rfl⟩ | ⟨_, _, _, rfl, -, rfl⟩
  · constructor
    · intro h
      simp only at h
      split at h
      case h_1 m htext =>
        obtain ⟨hstyle, htext⟩ := Option.ite_none_right_eq_some.1 htext
        obtain rfl := maybeNumber_none_iff.1 hstyle
        split at h
        case isTrue hle =>
          obtain rfl := Except.ok.inj h
          exact ⟨⟨text, rfl, Scalar.unsigned?_iff.1 htext⟩, hle⟩
        case isFalse =>
          split at h
          · cases h
          · exact absurd h (wrongKind_ne_ok _ _ _)
      case h_2 => exact absurd h (wrongKind_ne_ok _ _ _)
    · rintro ⟨⟨_, htext, hdenotes⟩, hle⟩
      cases htext
      simp only [maybeNumber_none_iff.2, if_true, Scalar.unsigned?_iff.2 hdenotes, if_pos hle]
  · exact ⟨fun h => absurd h (wrongKind_ne_ok _ _ _), fun ⟨⟨_, htext, _⟩, _⟩ => nomatch htext⟩
  · exact ⟨fun h => absurd h (wrongKind_ne_ok _ _ _), fun ⟨⟨_, htext, _⟩, _⟩ => nomatch htext⟩

/-- The word for a format. -/
def formatWord : LogFormat → String
  | .text => "text"
  | .json => "json"

theorem format?_iff {text : List Char} {f : LogFormat} : format? text = some f ↔ text = (formatWord f).toList := by
  unfold format?
  split
  case isTrue htext =>
    subst htext
    cases f <;> decide
  case isFalse htext =>
    split
    case isTrue hjson =>
      subst hjson
      cases f <;> decide
    case isFalse hjson =>
      refine ⟨fun h => (nomatch h), fun h => ?_⟩
      cases f with
      | text => exact absurd h htext
      | json => exact absurd h hjson

/-- A format is read from a scalar that is its word. -/
theorem readFormat_iff (h : n.tree? = some t) {outer : Place} {outerMark : Mark} {f : LogFormat} :
    readFormat root outer outerMark ⟨trail, n⟩ = .ok f ↔ t.text? = some (formatWord f).toList := by
  simp only [readFormat, follow_of_tree h]
  rcases Node.tree?_cases h with ⟨_, text, _, rfl, rfl⟩ | ⟨_, _, _, rfl, -, rfl⟩ | ⟨_, _, _, rfl, -, rfl⟩
  · simp only [variant?, Tree.text?, Option.some.injEq, ← format?_iff]
    cases format? text with
    | none => constructor <;> (intro h; cases h)
    | some g => exact ⟨fun h => congrArg some (Except.ok.inj h), fun h => congrArg Except.ok (Option.some.inj h)⟩
  · exact ⟨fun h => absurd h (wrongKind_ne_ok _ _ _), fun h => by cases h⟩
  · exact ⟨fun h => absurd h (wrongKind_ne_ok _ _ _), fun h => by cases h⟩

/-! ## One entry -/

variable {σ : Type} {fields : List (Field σ)}

theorem readKey_of_text {k : Node} {key : Tree} {text : List Char} (hkey : k.tree? = some key)
    (htext : key.text? = some text) : readKey root trail k = .ok (text, .key text) := by
  simp only [readKey, (readText_iff hkey).2 htext, ok_bind]
  rcases Node.tree?_cases hkey with ⟨_, _, _, rfl, rfl⟩ | ⟨_, _, _, rfl, -, rfl⟩ | ⟨_, _, _, rfl, -, rfl⟩
  · rfl
  · cases htext
  · cases htext

theorem isScalar_of_readKey {k : Node} {key : Tree} (hkey : k.tree? = some key) {r : List Char × Step}
    (h : readKey root trail k = .ok r) : ∃ text, key.text? = some text ∧ r = (text, .key text) := by
  obtain ⟨text, htext, -⟩ := ok_of_bind h
  have htext := (readText_iff hkey).1 htext
  rw [readKey_of_text hkey htext] at h
  exact ⟨text, htext, (Except.ok.inj h).symm⟩

/-- The field for a key of that text. -/
def fieldAt (fields : List (Field σ)) (text : List Char) : Option (Field σ) :=
  fields.find? fun f => f.name.toList == text

theorem mem_of_fieldAt {f : Field σ} {text : List Char} (h : fieldAt fields text = some f) :
    f ∈ fields ∧ text = f.name.toList := by
  have hname := List.find?_some h
  exact ⟨List.mem_of_find?_eq_some h, (eq_of_beq hname).symm⟩

theorem ne_of_fieldAt_none {key : Tree} {text : List Char} (htext : key.text? = some text)
    (h : fieldAt fields text = none) : ∀ f ∈ fields, key.text? ≠ some f.name.toList := by
  intro f hf hname
  rw [htext] at hname
  have := List.find?_eq_none.1 h f hf
  simp [Option.some.inj hname] at this

/-- An entry is read in two ways: its key names a field that was not met before
and its value is read by that field, or its key is a scalar that names none. -/
theorem readEntries_cons_iff {k v : Node} {key value : Tree} (hkey : k.tree? = some key)
    (hvalue : v.tree? = some value) {outer : Place} {mark : Mark} {seen : List String}
    {rest : List (Node × Node)} {s s' : σ} :
    readEntries root fields outer mark seen ((k, v) :: rest) s = .ok s' ↔
      (∃ text f, key.text? = some text ∧ fieldAt fields text = some f ∧ f.name ∉ seen ∧
        ∃ s₁, f.read ⟨.key text :: outer.trail, v⟩ s = .ok s₁ ∧
          readEntries root fields outer mark (f.name :: seen) rest s₁ = .ok s') ∨
      (∃ text, key.text? = some text ∧ fieldAt fields text = none ∧
        readEntries root fields outer mark seen rest s = .ok s') := by
  rw [readEntries]
  cases htext : key.text? with
  | none =>
    constructor
    · intro h
      obtain ⟨r, hr, -⟩ := ok_of_bind h
      obtain ⟨text, hsome, -⟩ := isScalar_of_readKey hkey hr
      rw [htext] at hsome
      cases hsome
    · rintro (⟨text, f, hnone, -⟩ | ⟨text, hnone, -⟩) <;> cases hnone
  | some text =>
    simp only [readKey_of_text hkey htext, ok_bind]
    cases hfield : fieldAt fields text with
    | none =>
      have hfind : fields.find? (fun f => f.name.toList == text) = none := hfield
      simp only [hfind, Node.isWhole_of_tree hvalue, if_true]
      constructor
      · exact fun h => .inr ⟨text, rfl, hfield, h⟩
      · rintro (⟨_, f, hsome, hsomefield, -⟩ | ⟨_, -, -, h⟩)
        · cases hsome
          rw [hfield] at hsomefield
          cases hsomefield
        · exact h
    | some f =>
      have hfind : fields.find? (fun f => f.name.toList == text) = some f := hfield
      simp only [hfind]
      constructor
      · intro h
        split at h
        case isTrue => cases h
        case isFalse hseen =>
          obtain ⟨s₁, hread, h⟩ := ok_of_bind h
          exact .inl ⟨text, f, rfl, hfield, fun hmem => hseen (List.elem_eq_true_of_mem hmem), s₁, hread, h⟩
      · rintro (⟨_, g, hsome, hsomefield, hseen, s₁, hread, h⟩ | ⟨_, hsome, hnofield, -⟩)
        · cases hsome
          rw [hfield] at hsomefield
          cases hsomefield
          rw [if_neg fun hmem => hseen (List.mem_of_elem_eq_true hmem), hread]
          exact h
        · cases hsome
          rw [hfield] at hnofield
          cases hnofield

/-! ## All entries -/

/-- The fields have these names, and each of them accepts the trees that `accepts`
says of its name. -/
structure Reads (fields : List (Field σ)) (names : List String) (accepts : String → Tree → Prop) : Prop where
  names : fields.map Field.name = names
  accepts : ∀ f ∈ fields, ∀ {trail : Trail} {n : Node} {t : Tree} (s : σ), n.tree? = some t →
    ((∃ s', f.read ⟨trail, n⟩ s = .ok s') ↔ accepts f.name t)

/-- The values at a known key may be read: none where it was met before, and no
more than one. -/
structure Fits (accepts : String → Tree → Prop) (seen : List String) (name : String) (es : List (Tree × Tree)) :
    Prop where
  fresh : name ∈ seen → Tree.valuesIn name es = []
  once : (Tree.valuesIn name es).length ≤ 1
  accepted : ∀ v ∈ Tree.valuesIn name es, accepts name v

section Fits

variable {accepts : String → Tree → Prop} {seen : List String} {name : String} {key value : Tree}
  {es : List (Tree × Tree)}

theorem fits_own (hkey : key.text? = some name.toList) :
    Fits accepts seen name ((key, value) :: es) ↔
      name ∉ seen ∧ accepts name value ∧ Fits accepts (name :: seen) name es := by
  have hvalues : Tree.valuesIn name ((key, value) :: es) = value :: Tree.valuesIn name es := by
    rw [Tree.valuesIn_cons, if_pos hkey]
  constructor
  · rintro ⟨hfresh, honce, haccepted⟩
    rw [hvalues] at hfresh honce haccepted
    have hnil : Tree.valuesIn name es = [] := List.eq_nil_of_length_eq_zero (by simpa using honce)
    exact ⟨fun hseen => absurd (hfresh hseen) (List.cons_ne_nil _ _), haccepted value List.mem_cons_self,
      fun _ => hnil, by simp [hnil], by simp [hnil]⟩
  · rintro ⟨hseen, hvalue, hrest⟩
    have hnil := hrest.fresh List.mem_cons_self
    exact ⟨fun h => absurd h hseen, by simp [hvalues, hnil], by simpa [hvalues, hnil] using hvalue⟩

theorem fits_other (hkey : key.text? ≠ some name.toList) :
    Fits accepts seen name ((key, value) :: es) ↔ Fits accepts seen name es := by
  have hvalues : Tree.valuesIn name ((key, value) :: es) = Tree.valuesIn name es := by
    rw [Tree.valuesIn_cons, if_neg hkey]
  constructor
  · rintro ⟨hfresh, honce, haccepted⟩
    rw [hvalues] at hfresh honce haccepted
    exact ⟨hfresh, honce, haccepted⟩
  · rintro ⟨hfresh, honce, haccepted⟩
    rw [← hvalues] at hfresh honce haccepted
    exact ⟨hfresh, honce, haccepted⟩

theorem fits_seen {other : String} (h : name ≠ other) :
    Fits accepts (other :: seen) name es ↔ Fits accepts seen name es := by
  have hmem : name ∈ other :: seen ↔ name ∈ seen := by simp [h]
  exact ⟨fun ⟨hfresh, honce, haccepted⟩ => ⟨fun hseen => hfresh (hmem.2 hseen), honce, haccepted⟩,
    fun ⟨hfresh, honce, haccepted⟩ => ⟨fun hseen => hfresh (hmem.1 hseen), honce, haccepted⟩⟩

/-- What an entry of a known key asks of the entries behind it. -/
theorem fits_known {f : Field σ} (hf : f ∈ fields) (hkey : key.text? = some f.name.toList) :
    (∀ g ∈ fields, Fits accepts seen g.name ((key, value) :: es)) ↔
      f.name ∉ seen ∧ accepts f.name value ∧ ∀ g ∈ fields, Fits accepts (f.name :: seen) g.name es := by
  constructor
  · intro h
    obtain ⟨hseen, hvalue, hrest⟩ := (fits_own hkey).1 (h f hf)
    refine ⟨hseen, hvalue, fun g hg => ?_⟩
    by_cases hname : g.name = f.name
    · rw [hname]
      exact hrest
    · exact (fits_seen hname).2 ((fits_other (Tree.text?_ne hkey hname)).1 (h g hg))
  · rintro ⟨hseen, hvalue, h⟩ g hg
    by_cases hname : g.name = f.name
    · rw [hname]
      exact (fits_own hkey).2 ⟨hseen, hvalue, h f hf⟩
    · exact (fits_other (Tree.text?_ne hkey hname)).2 ((fits_seen hname).1 (h g hg))

end Fits

variable {names : List String} {accepts : String → Tree → Prop}

/-- Entries are accepted exactly when every key is a scalar and the values at
every known key fit. -/
theorem readEntries_isOk_iff (hreads : Reads fields names accepts) {outer : Place} {mark : Mark}
    {entries : List (Node × Node)} {es : List (Tree × Tree)} (htrees : Node.entryTrees? entries = some es)
    (seen : List String) (s : σ) :
    (∃ s', readEntries root fields outer mark seen entries s = .ok s') ↔
      (∀ e ∈ es, e.1.IsScalar) ∧ ∀ f ∈ fields, Fits accepts seen f.name es := by
  -- A known key is seen by all entries behind it, so the induction is for any that were seen.
  induction entries generalizing es seen s with
  | nil =>
    obtain rfl := Option.some.inj htrees
    simp only [readEntries, Except.ok.injEq, exists_eq', true_iff]
    exact ⟨by simp, fun f _ => ⟨fun _ => rfl, Nat.zero_le 1, by simp [Tree.valuesIn]⟩⟩
  | cons e rest ih =>
    obtain ⟨k, v⟩ := e
    obtain ⟨key, value, more, hkey, hvalue, hmore, rfl⟩ := Node.entryTrees?_cons htrees
    simp only [readEntries_cons_iff hkey hvalue, List.forall_mem_cons]
    constructor
    · rintro ⟨s', ⟨text, f, htext, hfield, hseen, s₁, hread, h⟩ | ⟨text, htext, hfield, h⟩⟩
      · obtain ⟨hf, rfl⟩ := mem_of_fieldAt hfield
        obtain ⟨hkeys, hfits⟩ := (ih hmore _ s₁).1 ⟨s', h⟩
        have haccepts := (hreads.accepts f hf s hvalue).1 ⟨s₁, hread⟩
        exact ⟨⟨⟨_, htext⟩, hkeys⟩, (fits_known hf htext).2 ⟨hseen, haccepts, hfits⟩⟩
      · obtain ⟨hkeys, hfits⟩ := (ih hmore seen s).1 ⟨s', h⟩
        exact ⟨⟨⟨_, htext⟩, hkeys⟩,
          fun g hg => (fits_other (ne_of_fieldAt_none htext hfield g hg)).2 (hfits g hg)⟩
    · rintro ⟨⟨⟨text, htext⟩, hkeys⟩, hfits⟩
      cases hfield : fieldAt fields text with
      | some f =>
        obtain ⟨hf, rfl⟩ := mem_of_fieldAt hfield
        obtain ⟨hseen, haccepts, hfits⟩ := (fits_known hf htext).1 hfits
        obtain ⟨s₁, hread⟩ := (hreads.accepts f hf s hvalue).2 haccepts
        obtain ⟨s', h⟩ := (ih hmore _ s₁).2 ⟨hkeys, hfits⟩
        exact ⟨s', .inl ⟨_, f, htext, hfield, hseen, s₁, hread, h⟩⟩
      | none =>
        have hfits : ∀ g ∈ fields, Fits accepts seen g.name more :=
          fun g hg => (fits_other (ne_of_fieldAt_none htext hfield g hg)).1 (hfits g hg)
        obtain ⟨s', h⟩ := (ih hmore seen s).2 ⟨hkeys, hfits⟩
        exact ⟨s', .inr ⟨text, htext, hfield, h⟩⟩

/-- One name decides a part of the section: its field sets the part as `P` says,
and the other fields leave it. -/
structure Observes {α : Type} (fields : List (Field σ)) (name : String) (P : Tree → α → Prop) (get : σ → α) :
    Prop where
  known : ∃ f ∈ fields, f.name = name
  own : ∀ f ∈ fields, f.name = name → ∀ {trail : Trail} {n : Node} {t : Tree} {s s' : σ}, n.tree? = some t →
    f.read ⟨trail, n⟩ s = .ok s' → P t (get s')
  other : ∀ f ∈ fields, f.name ≠ name → ∀ {p : Place} {s s' : σ}, f.read p s = .ok s' → get s' = get s

/-- The part is what the value at its key says, and as before where there is none. -/
theorem readEntries_observes {α : Type} {P : Tree → α → Prop} {get : σ → α} {name : String}
    (hreads : Reads fields names accepts) (hobserves : Observes fields name P get) {outer : Place} {mark : Mark}
    {entries : List (Node × Node)} {es : List (Tree × Tree)} (htrees : Node.entryTrees? entries = some es)
    {seen : List String} {s s' : σ} (h : readEntries root fields outer mark seen entries s = .ok s') :
    (∀ v ∈ Tree.valuesIn name es, P v (get s')) ∧ (Tree.valuesIn name es = [] → get s' = get s) := by
  induction entries generalizing es seen s with
  | nil =>
    obtain rfl := Option.some.inj htrees
    rw [readEntries] at h
    cases h
    exact ⟨fun v hv => (nomatch hv), fun _ => rfl⟩
  | cons e rest ih =>
    obtain ⟨k, v⟩ := e
    obtain ⟨key, value, more, hkey, hvalue, hmore, rfl⟩ := Node.entryTrees?_cons htrees
    rcases (readEntries_cons_iff hkey hvalue).1 h with
      ⟨text, f, htext, hfield, hseen, s₁, hread, h⟩ | ⟨text, htext, hfield, h⟩
    · obtain ⟨hf, rfl⟩ := mem_of_fieldAt hfield
      obtain ⟨hvalues, hnone⟩ := ih hmore h
      by_cases hname : f.name = name
      · subst hname
        -- The name was met, so the rest has no value for it.
        have hnil := (((readEntries_isOk_iff hreads hmore _ s₁).1 ⟨s', h⟩).2 f hf).fresh List.mem_cons_self
        rw [Tree.valuesIn_cons, if_pos htext, hnil, hnone hnil]
        refine ⟨fun v hv => ?_, fun hfalse => nomatch hfalse⟩
        obtain rfl := List.mem_singleton.1 hv
        exact hobserves.own f hf rfl hvalue hread
      · rw [Tree.valuesIn_cons, if_neg (Tree.text?_ne htext (Ne.symm hname))]
        exact ⟨hvalues, fun hnil => (hnone hnil).trans (hobserves.other f hf hname hread)⟩
    · obtain ⟨f, hf, rfl⟩ := hobserves.known
      rw [Tree.valuesIn_cons, if_neg (ne_of_fieldAt_none htext hfield f hf)]
      exact ih hmore h

/-! ## Sections -/

section Section

variable {name : String} {fields : Place → Mark → List (Field σ)} {start : σ}

/-- A section is read from a mapping by its entries, and from nothing at all. -/
theorem readSection_iff (h : n.tree? = some t) {s : σ} :
    readSection root name fields start ⟨trail, n⟩ = .ok s ↔
      (∃ mark entries es, n = .mapping mark none none entries ∧ Node.entryTrees? entries = some es ∧
        t = .mapping es ∧ readEntries root (fields ⟨trail, n⟩ mark) ⟨trail, n⟩ mark [] entries start = .ok s) ∨
      (t = .scalar [] .plain ∧ start = s) := by
  simp only [readSection, follow_of_tree h]
  rcases Node.tree?_cases h with ⟨mark, text, style, rfl, rfl⟩ | ⟨_, _, _, rfl, -, rfl⟩ |
    ⟨mark, entries, es, rfl, htrees, rfl⟩
  · constructor
    · intro hok
      split at hok
      case h_1 hnode => cases hnode
      case h_2 hnode =>
        cases hnode
        exact .inr ⟨rfl, Except.ok.inj hok⟩
      case h_3 => exact absurd hok (wrongKind_ne_ok _ _ _)
    · rintro (⟨_, _, _, hnode, -⟩ | ⟨htext, rfl⟩)
      · cases hnode
      · cases htext
        rfl
  · constructor
    · exact fun h => absurd h (wrongKind_ne_ok _ _ _)
    · rintro (⟨_, _, _, hnode, -⟩ | ⟨htext, -⟩)
      · cases hnode
      · cases htext
  · constructor
    · exact fun h => .inl ⟨mark, entries, es, rfl, htrees, rfl, h⟩
    · rintro (⟨_, _, _, hnode, -, -, h⟩ | ⟨htext, -⟩)
      · cases hnode
        exact h
      · cases htext

/-- A section accepts the trees of its form whose values its fields accept. -/
theorem readSection_isOk_iff (hreads : ∀ p mark, Reads (fields p mark) names accepts) (h : n.tree? = some t) :
    (∃ s, readSection root name fields start ⟨trail, n⟩ = .ok s) ↔
      t.IsSection names ∧ ∀ name ∈ names, ∀ v ∈ t.valuesOf name, accepts name v := by
  simp only [readSection_iff h]
  constructor
  · rintro ⟨s, ⟨mark, entries, es, rfl, htrees, rfl, hentries⟩ | ⟨rfl, -⟩⟩
    · obtain ⟨hkeys, hfits⟩ := (readEntries_isOk_iff (hreads _ mark) htrees [] start).1 ⟨s, hentries⟩
      rw [← List.forall_mem_map (f := Field.name) (P := fun name => Fits accepts [] name es), (hreads _ mark).names]
        at hfits
      exact ⟨⟨.inl ⟨es, rfl⟩, hkeys, fun name hname => (hfits name hname).once⟩,
        fun name hname => (hfits name hname).accepted⟩
    · exact ⟨⟨.inr rfl, fun e he => (nomatch he), fun name _ => Nat.zero_le 1⟩, fun name _ v hv => nomatch hv⟩
  · rintro ⟨⟨⟨es, rfl⟩ | rfl, hkeys, honce⟩, haccepts⟩
    · rcases Node.tree?_cases h with ⟨_, _, _, -, htree⟩ | ⟨_, _, _, -, -, htree⟩ |
        ⟨mark, entries, es', rfl, htrees, htree⟩
      · cases htree
      · cases htree
      · cases htree
        have hfits : ∀ f ∈ fields ⟨trail, .mapping mark none none entries⟩ mark, Fits accepts [] f.name es := by
          intro f hf
          have hname : f.name ∈ names := (hreads _ mark).names ▸ List.mem_map_of_mem hf
          exact ⟨fun hseen => (nomatch hseen), honce _ hname, haccepts _ hname⟩
        obtain ⟨s, hentries⟩ := (readEntries_isOk_iff (hreads _ mark) htrees [] start).2 ⟨hkeys, hfits⟩
        exact ⟨s, .inl ⟨mark, entries, es, rfl, htrees, rfl, hentries⟩⟩
    · exact ⟨start, .inr ⟨rfl, rfl⟩⟩

theorem readSection_observes {α : Type} {P : Tree → α → Prop} {get : σ → α} {key : String}
    (hreads : ∀ p mark, Reads (fields p mark) names accepts)
    (hobserves : ∀ p mark, Observes (fields p mark) key P get) (h : n.tree? = some t) {s : σ}
    (hsection : readSection root name fields start ⟨trail, n⟩ = .ok s) :
    (∀ v ∈ t.valuesOf key, P v (get s)) ∧ (t.valuesOf key = [] → get s = get start) := by
  rcases (readSection_iff h).1 hsection with ⟨mark, entries, es, rfl, htrees, rfl, hentries⟩ | ⟨rfl, rfl⟩
  · exact readEntries_observes (hreads _ mark) (hobserves _ mark) htrees hentries
  · exact ⟨fun v hv => (nomatch hv), fun _ => rfl⟩

end Section

end AgentHost.Config
