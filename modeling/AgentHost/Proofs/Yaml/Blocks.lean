import AgentHost.Proofs.Yaml.Lines
import AgentHost.Proofs.Yaml.Tree
/-!
# A block text is read back as its tree

`Entries` are what a block text says: keys with scalars and keys with more entries,
to any depth. The lines inside a key are indented by two spaces more. The text of
entries is a document with their tree and nothing else (`Document.ofText_entries`):
the tokens of the lines are those of the entries, and the reader of block mappings
takes them one entry after the other.
-/

namespace AgentHost.Yaml

open Token

/-- Entries of a block mapping. -/
inductive Entries where
  | nil
  | leaf (key : Key) (value : Written) (rest : Entries)
  | nest (key : Key) (inner rest : Entries)

namespace Entries

/-- There are no entries. -/
def isNil : Entries → Bool
  | .nil => true
  | _ => false

/-- The lines of entries that are indented by so many spaces. -/
def lines (indent : Nat) : Entries → List Line
  | .nil => []
  | .leaf key value rest => ⟨indent, key, some value⟩ :: rest.lines indent
  | .nest key inner rest => ⟨indent, key, none⟩ :: (inner.lines (indent + 2) ++ rest.lines indent)

/-- The entries as a text. -/
def text (es : Entries) : List Char := Line.text (es.lines 0)

/-- The entries as trees. A key without entries behind it has an empty value. -/
def pairs : Entries → List (Tree × Tree)
  | .nil => []
  | .leaf key value rest => (.scalar key.text .plain, .scalar value.content value.style) :: rest.pairs
  | .nest key inner rest =>
    (.scalar key.text .plain, if inner.isNil then .scalar [] .plain else .mapping inner.pairs) :: rest.pairs

/-- The entries as one tree. -/
def tree (es : Entries) : Tree := if es.isNil then .scalar [] .plain else .mapping es.pairs

/-- The tokens of the entries. -/
def kinds : Entries → List Kind
  | .nil => []
  | .leaf key value rest => .key :: .scalar key.text .plain :: .value :: value.kind :: rest.kinds
  | .nest key inner rest =>
    .key :: .scalar key.text .plain :: .value ::
      ((if inner.isNil then [] else .blockMappingStart :: (inner.kinds ++ [.blockEnd])) ++ rest.kinds)

/-- The tokens of the entries as a mapping of their own. -/
def enclosed (es : Entries) : List Kind :=
  if es.isNil then [] else .blockMappingStart :: (es.kinds ++ [.blockEnd])

theorem isScalar_of_mem_pairs {es : Entries} {e : Tree × Tree} (h : e ∈ es.pairs) : e.1.IsScalar := by
  induction es with
  | nil => cases h
  | leaf key value rest ih =>
    rcases List.mem_cons.1 h with rfl | hrest
    · exact ⟨key.text, rfl⟩
    · exact ih hrest
  | nest key inner rest _ ihRest =>
    rcases List.mem_cons.1 h with rfl | hrest
    · exact ⟨key.text, rfl⟩
    · exact ihRest hrest

/-- Entries may be read as a section where no known key occurs twice. -/
theorem isSection_tree {es : Entries} {names : List String}
    (honce : (names.all fun name => (es.tree.valuesOf name).length ≤ 1) = true) : es.tree.IsSection names where
  form := by
    unfold tree
    split
    · exact .inr rfl
    · exact .inl ⟨es.pairs, rfl⟩
  keys := by
    unfold tree
    split
    · exact fun e he => (nomatch he)
    · exact fun e he => isScalar_of_mem_pairs he
  once := fun name hname => of_decide_eq_true (List.all_eq_true.1 honce name hname)

theorem kinds_nest (key : Key) (inner rest : Entries) : (nest key inner rest).kinds =
    .key :: .scalar key.text .plain :: .value :: (inner.enclosed ++ rest.kinds) := rfl

/-! ## The tokens of the lines -/

theorem head?_lines {es : Entries} {indent : Nat} {l : Line} (h : (es.lines indent).head? = some l) :
    l.indent = indent := by
  cases es with
  | nil => cases h
  | leaf key value rest => rw [← Option.some.inj h]
  | nest key inner rest => rw [← Option.some.inj h]

end Entries

namespace Line

variable {columns : List Nat} {ls : List Line} {indent : Nat} {key : Key} {value : Option Written}

/-- A line in the column of the innermost block begins and ends none. -/
theorem kindsFrom_same : kindsFrom (indent :: columns) (⟨indent, key, value⟩ :: ls) =
    kinds ⟨indent, key, value⟩ ++ kindsFrom (indent :: columns) ls := by
  simp [kindsFrom, cons_of_le (Nat.le_refl indent) columns, entering, entered, beyond]

/-- A line that stands deeper begins a block. -/
theorem kindsFrom_deeper (h : beyond columns indent = true) : kindsFrom columns (⟨indent, key, value⟩ :: ls) =
    .blockMappingStart :: kindsFrom (indent :: columns) (⟨indent, key, value⟩ :: ls) := by
  rw [kindsFrom_same]
  cases columns with
  | nil => rfl
  | cons column columns =>
    have hless : column < indent := by simpa [beyond] using h
    simp [kindsFrom, cons_of_le (Nat.le_of_lt hless) columns, entering, entered, h]

/-- A line that stands less deep ends a block, and so does the end of the text. -/
theorem kindsFrom_end (h : ∀ l, ls.head? = some l → l.indent < indent) :
    kindsFrom (indent :: columns) ls = .blockEnd :: kindsFrom columns ls := by
  cases ls with
  | nil => rfl
  | cons l ls =>
    simp [kindsFrom, cons_of_lt (h l rfl) columns]

end Line

namespace Entries

/-- Entries with a block of their own have its tokens around theirs. -/
theorem kindsFrom_enclosed {es : Entries} {indent : Nat} (columns : List Nat) {ls : List Line}
    (hinside : Line.kindsFrom (indent :: columns) (es.lines indent ++ ls) =
      es.kinds ++ Line.kindsFrom (indent :: columns) ls)
    (hdeeper : Line.beyond columns indent = true) (hend : ∀ l, ls.head? = some l → l.indent < indent) :
    Line.kindsFrom columns (es.lines indent ++ ls) = es.enclosed ++ Line.kindsFrom columns ls := by
  have hopen : es.isNil = false → Line.kindsFrom columns (es.lines indent ++ ls) =
      .blockMappingStart :: Line.kindsFrom (indent :: columns) (es.lines indent ++ ls) := by
    intro hnil
    cases es with
    | nil => cases hnil
    | leaf key value rest => exact Line.kindsFrom_deeper hdeeper
    | nest key inner rest => exact Line.kindsFrom_deeper hdeeper
  cases hnil : es.isNil with
  | true =>
    cases es with
    | nil => rfl
    | leaf | nest => cases hnil
  | false =>
    rw [hopen hnil, hinside, Line.kindsFrom_end hend, enclosed, hnil]
    simp

/-- Inside an open block the lines have the tokens of the entries. -/
theorem kindsFrom_lines (es : Entries) (indent : Nat) (columns : List Nat) {ls : List Line}
    (h : ∀ l, ls.head? = some l → l.indent ≤ indent) :
    Line.kindsFrom (indent :: columns) (es.lines indent ++ ls) = es.kinds ++ Line.kindsFrom (indent :: columns) ls := by
  induction es generalizing indent columns ls with
  | nil => rfl
  | leaf key value rest ih =>
    rw [lines, List.cons_append, Line.kindsFrom_same, ih indent columns h]
    rfl
  | nest key inner rest ihInner ihRest =>
    have hrest : ∀ l, (rest.lines indent ++ ls).head? = some l → l.indent ≤ indent := by
      intro l hl
      rw [List.head?_append] at hl
      cases hhead : (rest.lines indent).head? with
      | none => exact h l (by simpa [hhead] using hl)
      | some first =>
        obtain rfl : first = l := by simpa [hhead] using hl
        exact Nat.le_of_eq (head?_lines hhead)
    -- The lines of the key stand deeper than the block of the key, so they have a block of their own.
    have hinner := kindsFrom_enclosed (indent :: columns)
      (ihInner (indent + 2) (indent :: columns) fun l hl => Nat.le_add_right_of_le (hrest l hl))
      (by simp [Line.beyond])
      fun l hl => Nat.lt_add_right 1 (Nat.lt_succ_of_le (hrest l hl))
    rw [lines, List.cons_append, Line.kindsFrom_same, List.append_assoc, hinner, ihRest indent columns h]
    simp [kinds_nest, Line.kinds]

theorem kindsFrom_text (es : Entries) : Line.kindsFrom [] (es.lines 0) = es.enclosed ++ [.streamEnd] := by
  have hinside : Line.kindsFrom [0] (es.lines 0 ++ []) = es.kinds ++ Line.kindsFrom [0] [] :=
    es.kindsFrom_lines 0 [] fun _ h => nomatch h
  have h := kindsFrom_enclosed [] hinside rfl fun _ h => nomatch h
  rwa [List.append_nil] at h

theorem le_of_mem_lines {es : Entries} {indent : Nat} {l : Line} (h : l ∈ es.lines indent) : indent ≤ l.indent := by
  induction es generalizing indent with
  | nil => cases h
  | leaf key value rest ih =>
    rcases List.mem_cons.1 h with rfl | hrest
    · exact Nat.le_refl indent
    · exact ih hrest
  | nest key inner rest ihInner ihRest =>
    rcases List.mem_cons.1 h with rfl | hmore
    · exact Nat.le_refl indent
    · rcases List.mem_append.1 hmore with hinner | hrest
      · exact Nat.le_trans (Nat.le_add_right indent 2) (ihInner hinner)
      · exact ihRest hrest

/-- No line is deeper than one with a value in front of it. -/
theorem isChain_lines (es : Entries) (indent : Nat) : (es.lines indent).IsChain Line.Follows := by
  induction es generalizing indent with
  | nil => exact List.isChain_nil
  | leaf key value rest ih =>
    exact List.isChain_cons.2 ⟨fun l hl _ => Nat.le_of_eq (head?_lines hl), ih indent⟩
  | nest key inner rest ihInner ihRest =>
    refine List.isChain_cons.2 ⟨fun l _ hvalue => (nomatch hvalue), ?_⟩
    refine List.isChain_append.2 ⟨ihInner (indent + 2), ihRest indent, fun l hl l' hl' _ => ?_⟩
    rw [head?_lines hl']
    exact Nat.le_trans (Nat.le_add_right indent 2) (le_of_mem_lines (List.mem_of_getLast? hl))

end Entries

/-! ## Reading the tokens -/

namespace Node

variable {s : Source} {t : Token} {tokens : List Token} {fuel : Nat}

theorem peek_of_tokens (h : s.tokens = t :: tokens) : s.peek = .ok t := by
  rw [Source.peek, h]

theorem skip_of_tokens (h : s.tokens = t :: tokens) : s.skip = { s with tokens := tokens } := by
  rw [Source.skip, h]
  rfl

/-- A token that is no alias, anchor or tag starts a node without properties. -/
theorem node_of_content (h : s.tokens = t :: tokens) (halias : ∀ name, t.kind ≠ .alias name)
    (hanchor : anchorName? t = none) (htag : tagName? t = none) (block indentless : Bool) :
    node block indentless (fuel + 1) s = content block indentless ⟨t.start, none, none⟩ fuel s := by
  have hproperties : properties s = .ok (⟨t.start, none, none⟩, s) := by
    rw [properties, peek_of_tokens h]
    simp [hanchor, htag]
  unfold node
  rw [peek_of_tokens h]
  simp only [hproperties]

theorem node_scalar {text : List Char} {style : Style} (h : s.tokens = t :: tokens)
    (hkind : t.kind = .scalar text style) (block indentless : Bool) : node block indentless (fuel + 2) s =
      (.scalar t.start none none text style, .ok { s with tokens := tokens }) := by
  rw [node_of_content h (by simp [hkind]) (by simp [anchorName?, hkind]) (by simp [tagName?, hkind]), content,
    peek_of_tokens h]
  simp only [Source.bindAnchor, hkind, skip_of_tokens h]
  rfl

theorem node_mapping (h : s.tokens = t :: tokens) (hkind : t.kind = .blockMappingStart) (indentless : Bool) :
    node true indentless (fuel + 2) s =
      (.mapping t.start none none (blockEntries t.start fuel { s with tokens := tokens }).1,
        (blockEntries t.start fuel { s with tokens := tokens }).2) := by
  rw [node_of_content h (by simp [hkind]) (by simp [anchorName?, hkind]) (by simp [tagName?, hkind]), content,
    peek_of_tokens h]
  simp only [Source.bindAnchor, hkind, skip_of_tokens h]
  rfl

theorem blockPart_node (h : s.tokens = t :: tokens) (hends : endsBlockEntry t.kind = false) (stop : Mark) :
    blockPart stop (fuel + 1) s = node true true fuel s := by
  rw [blockPart, peek_of_tokens h]
  simp [hends]

theorem blockPart_scalar {text : List Char} {style : Style} (h : s.tokens = t :: tokens)
    (hkind : t.kind = .scalar text style) (stop : Mark) : blockPart stop (fuel + 3) s =
      (.scalar t.start none none text style, .ok { s with tokens := tokens }) := by
  rw [blockPart_node h (by simp [endsBlockEntry, hkind]), node_scalar h hkind]

/-- A key is read, and then its value and more entries. -/
theorem blockEntries_key {text : List Char} {ks : List Kind}
    (h : s.tokens.map (·.kind) = .key :: .scalar text .plain :: .value :: ks) (began : Mark) :
    ∃ mark stop tokens, tokens.map (·.kind) = ks ∧ ∀ fuel, blockEntries began (fuel + 4) s =
      Built.cons ((.scalar mark none none text .plain, (blockPart stop (fuel + 2) { s with tokens := tokens }).1),
        (blockPart stop (fuel + 2) { s with tokens := tokens }).2) (blockEntries began (fuel + 3)) := by
  obtain ⟨key, tokens, htokens, hkey, h⟩ := List.map_eq_cons_iff.1 h
  obtain ⟨scalar, tokens, rfl, hscalar, h⟩ := List.map_eq_cons_iff.1 h
  obtain ⟨value, tokens, rfl, hvalue, h⟩ := List.map_eq_cons_iff.1 h
  refine ⟨scalar.start, value.stop, tokens, h, fun fuel => ?_⟩
  have hpart : blockPart key.stop (fuel + 3) { s with tokens := scalar :: value :: tokens } =
      (.scalar scalar.start none none text .plain, .ok { s with tokens := value :: tokens }) :=
    blockPart_scalar rfl hscalar key.stop
  have hcolon : blockValue (fuel + 3) { s with tokens := value :: tokens } =
      blockPart value.stop (fuel + 2) { s with tokens := tokens } := by
    rw [blockValue, peek_of_tokens rfl]
    simp only [hvalue, beq_self_eq_true, if_true]
    rfl
  rw [blockEntries, peek_of_tokens htokens]
  simp only [hkey, skip_of_tokens htokens, hpart, Built.withValue, hcolon]

/-- The entries are read from their tokens, up to the end of the block. -/
def ReadsEntries (es : Entries) : Prop :=
  ∀ {fuel : Nat} {s : Source} {ks : List Kind} (began : Mark), s.tokens.map (·.kind) = es.kinds ++ .blockEnd :: ks →
    es.kinds.length + 5 ≤ fuel → ∃ pairs tokens, blockEntries began fuel s = (pairs, .ok { s with tokens := tokens }) ∧
      tokens.map (·.kind) = ks ∧ entryTrees? pairs = some es.pairs

/-- With entries behind it a key has their mapping as its value, and without them none. -/
theorem blockPart_enclosed {es : Entries} (hentries : ReadsEntries es) {ks : List Kind}
    (h : s.tokens.map (·.kind) = es.enclosed ++ ks) (hends : ∃ k more, ks = k :: more ∧ endsBlockEntry k = true)
    (hfuel : es.enclosed.length + 6 ≤ fuel) (stop : Mark) :
    ∃ n tokens, blockPart stop fuel s = (n, .ok { s with tokens := tokens }) ∧ tokens.map (·.kind) = ks ∧
      n.tree? = some es.tree := by
  obtain ⟨fuel, rfl⟩ := Nat.exists_eq_add_of_le' (Nat.le_trans (Nat.le_add_left 6 _) hfuel)
  cases hnil : es.isNil with
  | true =>
    rw [Entries.enclosed, if_pos hnil, List.nil_append] at h
    obtain ⟨k, more, hcons, hends⟩ := hends
    obtain ⟨t, tokens, htokens, hkind, -⟩ := List.map_eq_cons_iff.1 (h.trans hcons)
    refine ⟨.empty stop, s.tokens, ?_, h, ?_⟩
    · rw [blockPart, peek_of_tokens htokens]
      simp [hkind, hends]
    · rw [Entries.tree, if_pos hnil]
      rfl
  | false =>
    rw [Entries.enclosed, if_neg (by simp [hnil]), List.cons_append, List.append_assoc] at h
    obtain ⟨t, tokens, htokens, hkind, hmore⟩ := List.map_eq_cons_iff.1 h
    have henough : es.kinds.length + 5 ≤ fuel + 3 := by
      rw [Entries.enclosed, if_neg (by simp [hnil])] at hfuel
      simp only [List.length_cons, List.length_append, List.length_nil] at hfuel
      omega
    obtain ⟨pairs, tokens', hread, hrest, hpairs⟩ :=
      hentries (s := { s with tokens := tokens }) t.start hmore henough
    refine ⟨.mapping t.start none none pairs, tokens', ?_, hrest, ?_⟩
    · rw [blockPart_node htokens (by simp [endsBlockEntry, hkind]), node_mapping htokens hkind, hread]
    · rw [tree?, hpairs, Entries.tree, if_neg (by simp [hnil])]
      rfl

/-- Behind the tokens of entries the next one ends an entry. -/
theorem exists_endsBlockEntry (es : Entries) (ks : List Kind) :
    ∃ k more, es.kinds ++ .blockEnd :: ks = k :: more ∧ endsBlockEntry k = true := by
  cases es with
  | nil => exact ⟨_, _, rfl, rfl⟩
  | leaf | nest => exact ⟨_, _, rfl, rfl⟩

/-- An entry is read in front of others where its value is read and they are. -/
theorem blockEntries_cons (fuel : Nat) {text : List Char} {began : Mark} {ks ks' ks'' : List Kind} {value : Tree}
    {more : List (Tree × Tree)} (h : s.tokens.map (·.kind) = .key :: .scalar text .plain :: .value :: ks)
    (hvalue : ∀ stop tokens, tokens.map Token.kind = ks → ∃ n tokens',
      blockPart stop (fuel + 2) { s with tokens := tokens } = (n, .ok { s with tokens := tokens' }) ∧
        tokens'.map Token.kind = ks' ∧ n.tree? = some value)
    (hrest : ∀ tokens, tokens.map Token.kind = ks' → ∃ pairs tokens',
      blockEntries began (fuel + 3) { s with tokens := tokens } = (pairs, .ok { s with tokens := tokens' }) ∧
        tokens'.map Token.kind = ks'' ∧ entryTrees? pairs = some more) :
    ∃ pairs tokens, blockEntries began (fuel + 4) s = (pairs, .ok { s with tokens := tokens }) ∧
      tokens.map (·.kind) = ks'' ∧ entryTrees? pairs = some ((.scalar text .plain, value) :: more) := by
  obtain ⟨mark, stop, tokens, htokens, hread⟩ := blockEntries_key h began
  obtain ⟨n, tokens', hpart, hbehind, htree⟩ := hvalue stop tokens htokens
  obtain ⟨pairs, tokens'', hmore, hks, hpairs⟩ := hrest tokens' hbehind
  refine ⟨(.scalar mark none none text .plain, n) :: pairs, tokens'', ?_, hks, ?_⟩
  · rw [hread, hpart, Built.cons, hmore]
  · rw [entryTrees?, htree, hpairs]
    rfl

theorem readsEntries (es : Entries) : ReadsEntries es := by
  induction es with
  | nil =>
    intro fuel s ks began h hfuel
    obtain ⟨fuel, rfl⟩ := Nat.exists_eq_add_of_le' (Nat.le_trans (Nat.le_add_left 5 _) hfuel)
    obtain ⟨t, tokens, htokens, hkind, hmore⟩ := List.map_eq_cons_iff.1 h
    refine ⟨[], tokens, ?_, hmore, rfl⟩
    rw [blockEntries, peek_of_tokens htokens]
    simp only [hkind, skip_of_tokens htokens]
  | leaf key value rest ih =>
    intro fuel s ks began h hfuel
    simp only [Entries.kinds, List.length_cons] at hfuel
    obtain ⟨fuel, rfl⟩ := Nat.exists_eq_add_of_le' (Nat.le_trans (Nat.le_add_left 5 _) hfuel)
    simp only [Entries.kinds, List.cons_append] at h
    refine blockEntries_cons (fuel + 1) h (fun stop tokens htokens => ?_) fun tokens htokens =>
      ih began htokens (by omega)
    obtain ⟨t, tokens, rfl, hkind, hmore⟩ := List.map_eq_cons_iff.1 htokens
    exact ⟨_, tokens, blockPart_scalar rfl hkind stop, hmore, rfl⟩
  | nest key inner rest ihInner ihRest =>
    intro fuel s ks began h hfuel
    simp only [Entries.kinds_nest, List.cons_append, List.append_assoc] at h
    simp only [Entries.kinds_nest, List.length_cons, List.length_append] at hfuel
    obtain ⟨fuel, rfl⟩ := Nat.exists_eq_add_of_le' (show 8 ≤ fuel by omega)
    -- What follows the entries of the key is another key or the end of the block around it.
    exact blockEntries_cons (fuel + 4) h
      (fun stop tokens htokens => blockPart_enclosed ihInner htokens (exists_endsBlockEntry rest ks) (by omega) stop)
      fun tokens htokens => ihRest began htokens (by omega)

end Node

/-! ## Documents -/

/-- The text of entries is a document with their tree and nothing else. -/
theorem Document.ofText_entries (es : Entries) :
    ∃ root, Document.ofText es.text = ⟨root, none, false⟩ ∧ root.tree? = some es.tree := by
  obtain ⟨tokens, hscan, htokens⟩ := Token.scan_lines (es.isChain_lines 0)
  rw [es.kindsFrom_text] at htokens
  have htext : Document.ofText es.text = Document.ofTokens tokens none := by
    rw [Document.ofText, Entries.text, hscan]
  rw [htext]
  cases hnil : es.isNil with
  | true =>
    rw [Entries.enclosed, if_pos hnil, List.nil_append] at htokens
    obtain ⟨t, rest, rfl, hkind, -⟩ := List.map_eq_cons_iff.1 htokens
    refine ⟨Node.empty t.start, ?_, ?_⟩
    · rw [ofTokens, Node.peek_of_tokens rfl]
      simp only [hkind]
    · rw [Entries.tree, if_pos hnil]
      rfl
  | false =>
    rw [Entries.enclosed, if_neg (by simp [hnil]), List.cons_append, List.append_assoc] at htokens
    obtain ⟨t, rest, rfl, hkind, hmore⟩ := List.map_eq_cons_iff.1 htokens
    have hlength : rest.length = es.kinds.length + 2 := by
      rw [← List.length_map Token.kind, hmore]
      simp
    have hfuel : es.kinds.length + 5 ≤ 4 * rest.length + 6 := by omega
    obtain ⟨pairs, behind, hread, hend, hpairs⟩ :=
      Node.readsEntries es (s := ⟨rest, .character 0, defaultHandles, []⟩) t.start hmore hfuel
    obtain ⟨last, nothing, rfl, hlast, -⟩ := List.map_eq_cons_iff.1 hend
    have hroot : bareRoot (4 * (t :: rest).length + 4) ⟨t :: rest, .character 0, [], []⟩ =
        (.mapping t.start none none pairs, .ok ⟨last :: nothing, .character 0, defaultHandles, []⟩) := by
      rw [bareRoot, show 4 * (t :: rest).length + 4 = 4 * rest.length + 6 + 2 by simp only [List.length_cons]; omega,
        Node.node_mapping rfl hkind, hread]
    refine ⟨.mapping t.start none none pairs, ?_, ?_⟩
    · rw [ofTokens, Node.peek_of_tokens rfl]
      simp only [hkind, Option.getD_none, hroot, finish]
      rw [Node.peek_of_tokens rfl]
      simp [followedBy, hlast]
    · rw [Node.tree?, hpairs, Entries.tree, if_neg (by simp [hnil])]
      rfl

end AgentHost.Yaml
