import AgentHost.Proofs.Yaml.Scalars
import AgentHost.Yaml.Token.Stream
import Mathlib.Data.List.Chain
/-!
# The tokens of a block text

A block text is a list of lines. A line is indented by some spaces and holds a key
and, if it has one, a value. Its tokens are those of the key and the value; where
it is indented otherwise than the line before, blocks end or one begins. The scan
of a block text has just these tokens (`Token.scan_lines`): one step takes a line
(`Scan.Ahead.line`), and a scan of many lines goes on step by step.
-/

namespace AgentHost.Yaml

open Token

/-! ## Lines -/

/-- A word that may be a key. -/
structure Key extends Word where
  short : text.length ≤ 1024

/-- A scalar behind a key. -/
inductive Written where
  | word (w : Word)
  | quoted (capitals : Bool) (text : List Char)

namespace Written

/-- The scalar as it is written. -/
def chars : Written → List Char
  | .word w => w.text
  | .quoted capitals text => Yaml.quoted capitals text

/-- What the scalar says. -/
def content : Written → List Char
  | .word w => w.text
  | .quoted _ text => text

/-- How the scalar is written. -/
def style : Written → Style
  | .word _ => .plain
  | .quoted _ _ => .doubleQuoted

/-- The scalar as a token. -/
def kind (w : Written) : Kind := .scalar w.content w.style

/-- What stands between the colon of a key and the end of the line. -/
def behindColon : Option Written → List Char
  | none => []
  | some w => ' ' :: w.chars

end Written

/-- A line of a block text. -/
structure Line where
  indent : Nat
  key : Key
  value : Option Written

namespace Line

/-- The line from its key on, and more text behind it. -/
def fromKey (l : Line) (more : List Char) : List Char :=
  l.key.text ++ ':' :: (Written.behindColon l.value ++ '\n' :: more)

/-- The tokens of the key and the value. -/
def kinds (l : Line) : List Kind :=
  [.key, .scalar l.key.text .plain, .value] ++ (l.value.map Written.kind).toList

/-- Lines as a text. -/
def text : List Line → List Char
  | [] => []
  | l :: ls => List.replicate l.indent ' ' ++ l.fromKey (text ls)

/-- The indentation of the first line. -/
def firstIndent : List Line → Nat
  | [] => 0
  | l :: _ => l.indent

/-- The text behind the indentation of the first line. -/
def textFromKey : List Line → List Char
  | [] => []
  | l :: ls => l.fromKey (text ls)

theorem text_eq (ls : List Line) : text ls = List.replicate (firstIndent ls) ' ' ++ textFromKey ls := by
  cases ls <;> rfl

/-- The blocks that are still open where a line begins. -/
def remaining (columns : List Nat) (indent : Nat) : List Nat := columns.dropWhile (indent + 1 ≤ ·)

/-- The blocks that a line ends. -/
def ended (columns : List Nat) (indent : Nat) : List Nat := columns.takeWhile (indent + 1 ≤ ·)

/-- No open block starts at that column or behind it. -/
def beyond (columns : List Nat) (indent : Nat) : Bool := columns.head?.all (· < indent)

/-- The blocks that are open behind a key, which begins one if it stands deeper. -/
def entered (columns : List Nat) (indent : Nat) : List Nat :=
  if beyond columns indent then indent :: columns else columns

/-- The token of the block that a key begins. -/
def entering (columns : List Nat) (indent : Nat) : List Kind :=
  if beyond columns indent then [.blockMappingStart] else []

/-- The tokens of lines inside some open blocks, to the end of the text. -/
def kindsFrom : List Nat → List Line → List Kind
  | columns, [] => columns.map (fun _ => .blockEnd) ++ [.streamEnd]
  | columns, l :: ls =>
    let left := remaining columns l.indent
    (ended columns l.indent).map (fun _ => .blockEnd) ++
      (entering left l.indent ++ (l.kinds ++ kindsFrom (entered left l.indent) ls))

/-- A line with a value is followed by none that is indented deeper. -/
def Follows (l next : Line) : Prop := l.value.isSome → next.indent ≤ l.indent

theorem streamEnd_not_mem_entering (columns : List Nat) (indent : Nat) : .streamEnd ∉ entering columns indent := by
  unfold entering
  split <;> simp

theorem streamEnd_not_mem_kinds (l : Line) : .streamEnd ∉ l.kinds := by
  obtain ⟨_, _, value⟩ := l
  rcases value with _ | (_ | _) <;> simp [kinds, Written.kind]

/-- Lines have no characters that a text may not hold. -/
theorem isAllowed_of_mem_text {ls : List Line} {c : Char} (h : c ∈ text ls) : isAllowed c = true := by
  have hword : ∀ w : Word, c ∈ w.text → isPrintable c = true := fun w hc => isPrintable_of_isWordChar (w.chars c hc)
  have hvalue : ∀ w : Written, c ∈ w.chars → isPrintable c = true := by
    intro w hc
    cases w with
    | word w => exact hword w hc
    | quoted capitals text => exact isPrintable_of_mem_quoted hc
  induction ls with
  | nil => cases h
  | cons l ls ih =>
    obtain ⟨indent, key, value⟩ := l
    simp only [text, fromKey, List.mem_append, List.mem_cons, List.mem_replicate] at h
    rcases h with ⟨-, rfl⟩ | hkey | rfl | hbehind | rfl | hmore
    · decide
    · exact isAllowed_of_isPrintable (hword key.toWord hkey)
    · decide
    · cases value with
      | none => cases hbehind
      | some w =>
        rcases List.mem_cons.1 hbehind with rfl | hchars
        · decide
        · exact isAllowed_of_isPrintable (hvalue w hchars)
    · decide
    · exact ih hmore

theorem length_text (ls : List Line) : 3 * ls.length ≤ (text ls).length := by
  induction ls with
  | nil => exact Nat.le_refl 0
  | cons l ls ih =>
    have hkey := List.length_pos_iff.2 l.key.ne_nil
    simp only [text, fromKey, List.length_append, List.length_cons, List.length_replicate]
    omega

/-- A block that a line stands inside of goes on. -/
theorem cons_of_le {column indent : Nat} (h : column ≤ indent) (columns : List Nat) :
    ended (column :: columns) indent = [] ∧ remaining (column :: columns) indent = column :: columns := by
  have hopen : ¬decide (indent + 1 ≤ column) = true := by
    rw [decide_eq_true_eq]
    omega
  exact ⟨List.takeWhile_cons_of_neg hopen, List.dropWhile_cons_of_neg hopen⟩

/-- A block that a line stands outside of ends. -/
theorem cons_of_lt {column indent : Nat} (h : indent < column) (columns : List Nat) :
    ended (column :: columns) indent = column :: ended columns indent ∧
      remaining (column :: columns) indent = remaining columns indent := by
  have hends : decide (indent + 1 ≤ column) = true := decide_eq_true h
  exact ⟨List.takeWhile_cons_of_pos hends, List.dropWhile_cons_of_pos hends⟩

theorem le_of_remaining {columns : List Nat} {indent column : Nat}
    (h : (remaining columns indent).head? = some column) : column ≤ indent := by
  have hnot := List.head?_dropWhile_not (fun column => decide (indent + 1 ≤ column)) columns
  rw [show columns.dropWhile (fun column => decide (indent + 1 ≤ column)) = remaining columns indent from rfl,
    h] at hnot
  simp only [decide_eq_false_iff_not] at hnot
  omega

/-- The innermost block behind a key is the one that the key stands in. -/
theorem entered_remaining (columns : List Nat) (indent : Nat) :
    ∃ outer, entered (remaining columns indent) indent = indent :: outer := by
  unfold entered
  cases hleft : remaining columns indent with
  | nil => exact ⟨[], rfl⟩
  | cons column outer =>
    have hle : column ≤ indent := le_of_remaining (by rw [hleft]; rfl)
    by_cases hless : column < indent
    · exact ⟨column :: outer, by simp [beyond, hless]⟩
    · obtain rfl : column = indent := Nat.le_antisymm hle (Nat.not_lt.1 hless)
      exact ⟨outer, by simp [beyond]⟩

end Line

/-! ## A scan that holds nothing back -/

namespace Token.Scan

/-- The kinds of the tokens that may be read. -/
def said (released : List Token) : List Kind := released.reverse.map (·.kind)

/-- A scan outside of brackets that holds nothing back. -/
def clear (c : Cursor) (columns : List Nat) (allowed : Bool) (released : List Token) (count : Nat) : Scan :=
  ⟨c, columns, allowed, none, [], released, count, []⟩

/-- A scan outside of brackets that holds back what may be a key. -/
def keyed (c : Cursor) (columns : List Nat) (k : Candidate) (t : Token) (released : List Token) (count : Nat) : Scan :=
  ⟨c, columns, false, some k, [], released, count, [t]⟩

variable {c : Cursor} {columns : List Nat} {allowed : Bool} {released held : List Token} {count : Nat} {m : Mark}

theorem dropStale_clear :
    (clear c columns allowed released count).dropStale = .ok (clear c columns allowed released count) := rfl

theorem dropStale_of_none {s : Scan} (hcandidate : s.candidate = none) (houter : s.outer = []) :
    s.dropStale = .ok s := by
  obtain ⟨_, _, _, _, _, _, _, _⟩ := s
  subst hcandidate houter
  rfl

theorem release_of_none : release ⟨c, columns, allowed, none, [], released, count, held⟩ =
    clear c columns allowed (held.reverse ++ released) (count + held.length) := by
  simp [release, candidates, clear]

theorem closeBlocks_clear (limit : Nat) : (clear c columns allowed released count).closeBlocks limit =
    { clear c (columns.dropWhile (limit ≤ ·)) allowed released count with
      held := (columns.takeWhile (limit ≤ ·)).map fun _ => ⟨.blockEnd, c.mark, c.mark⟩ } := by
  simp [closeBlocks, clear, inFlow]

/-! ## Between tokens -/

/-- A token starts here, or the text ends. -/
structure Begins (rest : List Char) : Prop where
  solid : Solid rest
  uncommented : ∀ ch, rest.head? = some ch → ch ≠ '#'
  unmarked : ∀ ch, rest.head? = some ch → ch ≠ '\ufeff'

theorem begins_cons {ch : Char} (h : isPrintable ch = true ∧ ch ≠ ' ' ∧ ch ≠ '#') (rest : List Char) :
    Begins (ch :: rest) where
  solid := solid_cons (isGap_of_isPrintable h.1 h.2.1) rest
  uncommented := by
    intro d hd
    obtain rfl := Option.some.inj hd
    exact h.2.2
  unmarked := by
    rintro d hd rfl
    obtain rfl := Option.some.inj hd
    exact absurd h.1 (by decide)

theorem skipWhile_spaces {p : Char → Bool} (hspace : p ' ' = true) (n : Nat) {rest : List Char}
    (h : ∀ ch, rest.head? = some ch → p ch = false) (m : Mark) :
    Cursor.skipWhile p (List.replicate n ' ' ++ rest) m = ⟨rest, m.along n⟩ := by
  induction n generalizing m with
  | zero =>
    cases rest with
    | nil => rfl
    | cons ch rest => simp [Cursor.skipWhile, h ch rfl]
  | succ n ih => rw [List.replicate_succ, List.cons_append, Cursor.skipWhile, if_pos hspace, ih, Mark.next_along]

theorem skipComment_eq {c : Cursor} (h : ∀ ch, c.rest.head? = some ch → ch ≠ '#') : c.skipComment = c := by
  unfold Cursor.skipComment
  split
  case h_1 hrest => exact absurd rfl (h _ (by rw [hrest]; rfl))
  case h_2 => rfl

/-- Spaces in front of a token are passed over. -/
theorem toNextToken_spaces {s : Scan} (n : Nat) {rest : List Char} (h : Begins rest)
    (hcursor : s.cursor = ⟨List.replicate n ' ' ++ rest, m⟩) (fuel : Nat) :
    s.toNextToken (fuel + 1) = { s with cursor := ⟨rest, m.along n⟩ } := by
  have hmark : ((List.replicate n ' ' ++ rest).head? == some '\ufeff') = false := by
    cases n with
    | zero => exact beq_eq_false_iff_ne.2 fun hhead => h.unmarked _ hhead rfl
    | succ n => rfl
  have hskip : ∀ tabs : Bool, Cursor.skipWhile (fun ch => ch == ' ' || (tabs && ch == '\t'))
      (List.replicate n ' ' ++ rest) m = ⟨rest, m.along n⟩ := by
    intro tabs
    refine skipWhile_spaces rfl n (fun ch hhead => ?_) m
    have hblank := (Bool.or_eq_false_iff.1 (h.solid ch hhead)).1
    simp only [isBlank, Bool.or_eq_false_iff] at hblank
    simp [hblank]
  have hbreak : rest.head?.any isBreak = false := by
    cases rest with
    | nil => rfl
    | cons ch rest => exact (Bool.or_eq_false_iff.1 (h.solid ch rfl)).2
  have hcomment := skipComment_eq (c := ⟨rest, m.along n⟩) h.uncommented
  simp only [toNextToken, hcursor, hmark, Bool.and_false, Bool.false_eq_true, if_false, hskip, hcomment, hbreak]

/-- Behind a break a key may start. -/
theorem toNextToken_break (rest : List Char) (fuel : Nat) :
    (clear ⟨'\n' :: rest, m⟩ columns allowed released count).toNextToken (fuel + 1) =
      (clear ⟨rest, m.newLine 1⟩ columns true released count).toNextToken fuel := by
  have hskip : Cursor.skipWhile (fun ch => ch == ' ' || (!allowed && ch == '\t')) ('\n' :: rest) m =
      ⟨'\n' :: rest, m⟩ := by
    simp [Cursor.skipWhile]
  have hcomment : Cursor.skipComment ⟨'\n' :: rest, m⟩ = ⟨'\n' :: rest, m⟩ := skipComment_eq (by simp)
  have hbreak : Cursor.takeBreak ⟨'\n' :: rest, m⟩ = (['\n'], ⟨rest, m.newLine 1⟩) := by
    simp [Cursor.takeBreak, isBreak, breakText]
  have hmark : (('\n' :: rest).head? == some '\ufeff') = false := rfl
  simp only [toNextToken, clear, inFlow, List.isEmpty_nil, Bool.not_true, Bool.false_or, hmark, Bool.and_false,
    Bool.false_eq_true, if_false, hskip, hcomment, hbreak, Bool.not_false, Bool.or_true]
  rfl

/-! ## The tokens of a line -/

theorem atDocumentIndicator_of_head {c : Cursor} {ch : Char} {rest : List Char} (h : c.rest = ch :: rest)
    (hdash : ch ≠ '-') (hdot : ch ≠ '.') : c.atDocumentIndicator = false := by
  unfold Cursor.atDocumentIndicator
  rw [h]
  split <;> simp_all

theorem startsPlain_of_isWordChar {ch : Char} (h : isWordChar ch = true) : startsPlain ch = true := by
  have hnone : ("-?:,[]\x7b\x7d#&*!|>'\"%@`".toList.all fun d => !isWordChar d) = true := by decide
  have hgap := isGap_of_isPrintable (isPrintable_of_isWordChar h) (ne_space_of_isWordChar h)
  unfold startsPlain
  rw [hgap, Bool.not_false, Bool.true_and, Bool.not_eq_true']
  by_contra hmem
  have hword := List.all_eq_true.1 hnone ch (List.elem_iff.1 (eq_true_of_ne_false hmem))
  rw [h] at hword
  cases hword

/-- A word is a plain scalar. -/
theorem takeToken_word {s : Scan} {ch : Char} {rest : List Char} (hrest : s.cursor.rest = ch :: rest)
    (h : isWordChar ch = true) : s.takeToken = s.takePlain := by
  have hnot : ∀ d, isWordChar d = false → ch ≠ d := by
    rintro d hd rfl
    rw [h] at hd
    cases hd
  have hindicator := atDocumentIndicator_of_head hrest (hnot '-' (by decide)) (hnot '.' (by decide))
  unfold takeToken
  rw [hrest]
  simp only [hindicator, Bool.false_eq_true, if_false]
  rw [if_neg fun hpercent => hnot '%' (by decide) hpercent.1]
  split
  case h_14 =>
    rw [if_neg, if_pos (startsPlain_of_isWordChar h)]
    rintro ⟨hbar | hangle, -⟩
    · exact hnot '|' (by decide) hbar
    · exact hnot '>' (by decide) hangle
  all_goals exact absurd h (by decide)

theorem dropStale_fresh {s : Scan} {k : Candidate} (hcandidate : s.candidate = some k) (houter : s.outer = [])
    (h : s.isStale k = false) : s.dropStale = .ok s := by
  have hcandidates : s.candidates = [k] := by simp [candidates, hcandidate, houter]
  have hkeep : s.keepFresh s.candidate = s.candidate := by simp [hcandidate, keepFresh, h]
  have hnone : s.candidates.reverse.find? (fun k => s.isStale k && k.required) = none := by simp [hcandidates, h]
  unfold dropStale
  rw [hnone]
  simp only [hkeep, houter, List.map_nil]
  rw [← houter]

/-- Tokens in front of the candidate are released, those behind it are not. -/
theorem release_keyed (k : Candidate) (t : Token) (h : k.number = count + held.length) :
    release ⟨c, columns, allowed, some k, [], released, count, held ++ [t]⟩ =
      ⟨c, columns, allowed, some k, [], held.reverse ++ released, count + held.length, [t]⟩ := by
  simp [release, candidates, h]

/-- A key is read as a plain scalar and noted as a candidate. -/
theorem takeToken_key (key : Key) {rest : List Char} (hrest : endsWord rest = true) (m : Mark) (columns : List Nat)
    (released : List Token) (count : Nat) (held : List Token) :
    ∃ required, takeToken ⟨⟨key.text ++ ':' :: rest, m⟩, columns, true, none, [], released, count, held⟩ =
      .ok ⟨⟨':' :: rest, m.along key.text.length⟩, columns, false, some ⟨count + held.length, m, required⟩,
        [], released, count, held ++ [⟨.scalar key.text .plain, m, m.along key.text.length⟩]⟩ := by
  obtain ⟨ch, more, htext⟩ := List.exists_cons_of_ne_nil key.ne_nil
  have hchar : isWordChar ch = true := key.chars ch (by simp [htext])
  refine ⟨margin ⟨⟨key.text ++ ':' :: rest, m⟩, columns, true, none, [], released, count, held⟩ == m.column + 1, ?_⟩
  have hword : key.text ++ ':' :: rest = ch :: (more ++ ':' :: rest) := by rw [htext, List.cons_append]
  rw [takeToken_word hword hchar]
  simp only [takePlain, noteCandidate, dropCandidate, inFlow, ok_bind, if_true, List.isEmpty_nil, Bool.not_true,
    Plain.read_word key.toWord hrest]
  rfl

/-- A key is held back behind the ends of the blocks that it is not inside of. -/
theorem next_key (key : Key) {rest : List Char} (hrest : endsWord rest = true)
    (htoken : (clear c columns allowed released count).toNextToken (c.rest.length + 1) =
      clear ⟨key.text ++ ':' :: rest, m⟩ columns true released count) :
    ∃ required, (clear c columns allowed released count).next =
      .ok (keyed ⟨':' :: rest, m.along key.text.length⟩ (Line.remaining columns m.column)
        ⟨count + (Line.ended columns m.column).length, m, required⟩
        ⟨.scalar key.text .plain, m, m.along key.text.length⟩
        (((Line.ended columns m.column).map fun _ => ⟨.blockEnd, m, m⟩).reverse ++ released)
        (count + (Line.ended columns m.column).length)) := by
  generalize hends : (Line.ended columns m.column).map (fun _ => (⟨.blockEnd, m, m⟩ : Token)) = ends
  have hlength : (Line.ended columns m.column).length = ends.length := by rw [← hends, List.length_map]
  have hclose : (clear ⟨key.text ++ ':' :: rest, m⟩ columns true released count).closeBlocks (m.column + 1) =
      ⟨⟨key.text ++ ':' :: rest, m⟩, Line.remaining columns m.column, true, none, [], released, count, ends⟩ := by
    rw [closeBlocks_clear, ← hends]
    rfl
  obtain ⟨required, htake⟩ := takeToken_key key hrest m (Line.remaining columns m.column) released count ends
  have hfresh : isStale ⟨⟨':' :: rest, m.along key.text.length⟩, Line.remaining columns m.column, false,
      some ⟨count + ends.length, m, required⟩, [], released, count,
      ends ++ [⟨.scalar key.text .plain, m, m.along key.text.length⟩]⟩ ⟨count + ends.length, m, required⟩ = false := by
    have hshort : ¬m.index + 1024 < (m.along key.text.length).index := by
      have := key.short
      simp only [Mark.along]
      omega
    exact Bool.or_eq_false_iff.2 ⟨decide_eq_false (Nat.lt_irrefl _), decide_eq_false hshort⟩
  refine ⟨required, ?_⟩
  rw [next]
  simp only [show (clear c columns allowed released count).cursor = c from rfl, htoken, dropStale_clear, ok_bind]
  rw [show (clear ⟨key.text ++ ':' :: rest, m⟩ columns true released count).cursor.mark = m from rfl, hclose, htake,
    ok_bind, dropStale_fresh rfl rfl hfresh, ok_bind, release_keyed _ _ rfl, hlength]
  rfl

theorem closeBlocks_inside {s : Scan} {limit : Nat} (houter : s.outer = [])
    (h : ∀ column, s.columns.head? = some column → column < limit) : s.closeBlocks limit = s := by
  obtain ⟨_, columns, _, _, _, _, _, _⟩ := s
  subst houter
  cases columns with
  | nil => simp [closeBlocks, inFlow]
  | cons column more =>
    have hopen : ¬limit ≤ column := Nat.not_le_of_lt (h column rfl)
    simp [closeBlocks, inFlow, hopen]

/-- The token of the block that a key at that place begins. -/
def opened (columns : List Nat) (m : Mark) : List Token :=
  (Line.entering columns m.column).map fun kind => ⟨kind, m, m⟩

theorem margin_le_iff (s : Scan) (column : Nat) : s.margin ≤ column ↔ Line.beyond s.columns column = true := by
  unfold margin Line.beyond
  cases s.columns with
  | nil => simp
  | cons outer more => exact decide_eq_true_iff.symm

theorem takeToken_colon {s : Scan} {rest : List Char} (hcursor : s.cursor.rest = ':' :: rest)
    (h : endsWord rest = true) : s.takeToken = s.takeValue := by
  have hindicator := atDocumentIndicator_of_head hcursor (by decide) (by decide)
  unfold takeToken
  rw [hcursor]
  simp [hindicator, h]

theorem takeValue_keyed (rest : List Char) (colon m : Mark) (required : Bool) (t : Token) (columns : List Nat)
    (released : List Token) (count : Nat) :
    (keyed ⟨':' :: rest, colon⟩ columns ⟨count, m, required⟩ t released count).takeValue =
      .ok ⟨⟨rest, colon.next⟩, Line.entered columns m.column, false, none, [], released, count,
        opened columns m ++ [⟨.key, m, m⟩, t, ⟨.value, colon, colon.next⟩]⟩ := by
  simp only [takeValue, keyed, insert, openBlock, inFlow, margin_le_iff, Nat.sub_self, List.take_zero, List.drop_zero]
  unfold opened Line.entered Line.entering
  split <;> simp_all [take, push, Cursor.advance, Cursor.skip]

/-- A colon makes the candidate a key and releases it. -/
theorem next_colon {rest : List Char} (hrest : endsWord rest = true) {width : Nat} (hwidth : width ≤ 1024) (m : Mark)
    (required : Bool) (t : Token) {columns : List Nat}
    (hinside : ∀ column, columns.head? = some column → column ≤ m.column) (released : List Token) (count : Nat) :
    (keyed ⟨':' :: rest, m.along width⟩ columns ⟨count, m, required⟩ t released count).next =
      .ok (clear ⟨rest, (m.along width).next⟩ (Line.entered columns m.column) false
        ((opened columns m ++ [⟨.key, m, m⟩, t, ⟨.value, m.along width, (m.along width).next⟩]).reverse ++ released)
        (count + ((opened columns m).length + 3))) := by
  have htake := takeValue_keyed rest (m.along width) m required t columns released count
  -- Every part of the step but the last leaves the scan as it is, so it stays a name until then.
  generalize hstate : keyed ⟨':' :: rest, m.along width⟩ columns ⟨count, m, required⟩ t released count = s at *
  have hbegins : Begins (':' :: rest) := begins_cons (by decide) rest
  have htoken : s.toNextToken (s.cursor.rest.length + 1) = s := by
    subst hstate
    refine (toNextToken_spaces (m := m.along width) 0 hbegins ?_ _).trans ?_
    · rfl
    · rfl
  have hfresh : s.isStale ⟨count, m, required⟩ = false := by
    subst hstate
    refine Bool.or_eq_false_iff.2 ⟨decide_eq_false (Nat.lt_irrefl _), decide_eq_false ?_⟩
    simp only [keyed, Mark.along]
    omega
  have hclose : s.closeBlocks (s.cursor.mark.column + 1) = s := by
    subst hstate
    refine closeBlocks_inside rfl fun column hcolumn => ?_
    have := hinside column hcolumn
    simp only [keyed, Mark.along]
    omega
  have hcolon : s.takeToken = s.takeValue := by
    subst hstate
    exact takeToken_colon rfl hrest
  have hdrop : s.dropStale = .ok s :=
    dropStale_fresh (k := ⟨count, m, required⟩) (by rw [← hstate]; rfl) (by rw [← hstate]; rfl) hfresh
  rw [next, htoken, hdrop, ok_bind, hclose, hcolon, htake, ok_bind, dropStale_of_none rfl rfl, ok_bind, release_of_none]
  simp

/-- A token that is no key is released at once. -/
theorem next_released {c' after : Cursor} {allowed' allowed'' : Bool} {t : Token}
    (htoken : (clear c columns allowed released count).toNextToken (c.rest.length + 1) =
      clear c' columns allowed' released count)
    (hinside : ∀ column, columns.head? = some column → column ≤ c'.mark.column)
    (htake : (clear c' columns allowed' released count).takeToken =
      .ok ⟨after, columns, allowed'', none, [], released, count, [t]⟩) :
    (clear c columns allowed released count).next = .ok (clear after columns allowed'' (t :: released) (count + 1)) := by
  have hclose : (clear c' columns allowed' released count).closeBlocks (c'.mark.column + 1) =
      clear c' columns allowed' released count :=
    closeBlocks_inside rfl fun column hcolumn => Nat.lt_succ_of_le (hinside column hcolumn)
  rw [next, show (clear c columns allowed released count).cursor = c from rfl, htoken, dropStale_clear, ok_bind,
    show (clear c' columns allowed' released count).cursor = c' from rfl, hclose, htake, ok_bind,
    dropStale_of_none rfl rfl, ok_bind, release_of_none]
  rfl

theorem takeToken_quoted (capitals : Bool) (text rest : List Char) (m : Mark) (columns : List Nat)
    (released : List Token) (count : Nat) :
    ∃ stop, (clear ⟨quoted capitals text ++ rest, m⟩ columns false released count).takeToken =
      .ok ⟨⟨rest, stop⟩, columns, false, none, [], released, count, [⟨.scalar text .doubleQuoted, m, stop⟩]⟩ := by
  obtain ⟨stop, hread⟩ := Quoted.read_quoted capitals text rest m
  have hindicator : Cursor.atDocumentIndicator ⟨quoted capitals text ++ rest, m⟩ = false :=
    atDocumentIndicator_of_head rfl (by decide) (by decide)
  refine ⟨stop, ?_⟩
  have htoken : (clear ⟨quoted capitals text ++ rest, m⟩ columns false released count).takeToken =
      (clear ⟨quoted capitals text ++ rest, m⟩ columns false released count).takeNodePart (Quoted.read true) := by
    unfold takeToken
    simp only [clear, hindicator]
    rfl
  rw [htoken]
  simp only [takeNodePart, noteCandidate, clear, Bool.false_eq_true, if_false, ok_bind, hread]
  rfl

theorem takeToken_word_line (w : Word) {column n : Nat} (hindent : n ≤ column) {rest : List Char} (h : Solid rest)
    (m : Mark) (columns : List Nat) (released : List Token) (count : Nat) :
    ∃ stop after, after.column = n ∧
      (clear ⟨w.text ++ '\n' :: (List.replicate n ' ' ++ rest), m⟩ (column :: columns) false released
          count).takeToken =
        .ok ⟨⟨rest, after⟩, column :: columns, true, none, [], released, count,
          [⟨.scalar w.text .plain, m, stop⟩]⟩ := by
  obtain ⟨ch, more, htext⟩ := List.exists_cons_of_ne_nil w.ne_nil
  have hchar : isWordChar ch = true := w.chars ch (by simp [htext])
  obtain ⟨stop, after, hafter, hread⟩ := Plain.read_word_line w (Nat.lt_succ_of_le hindent) h m
  refine ⟨stop, after, hafter, ?_⟩
  have hword : w.text ++ '\n' :: (List.replicate n ' ' ++ rest) =
      ch :: (more ++ '\n' :: (List.replicate n ' ' ++ rest)) := by rw [htext, List.cons_append]
  rw [takeToken_word hword hchar]
  simp only [takePlain, noteCandidate, clear, inFlow, margin, Bool.false_eq_true, if_false, ok_bind, List.isEmpty_nil,
    Bool.not_true, hread]
  rfl

/-! ## From line to line -/

/-- The scan holds nothing back and goes on with `rest` in a column where a key may start. -/
def Ahead (s : Scan) (columns : List Nat) (kinds : List Kind) (column : Nat) (rest : List Char) : Prop :=
  ∃ c allowed released count m, s = clear c columns allowed released count ∧ said released = kinds ∧
    m.column = column ∧ s.toNextToken (c.rest.length + 1) = clear ⟨rest, m⟩ columns true released count

theorem ahead_spaces {rest : List Char} (h : Begins rest) (n : Nat) (m : Mark) (columns : List Nat)
    (released : List Token) (count : Nat) :
    Ahead (clear ⟨List.replicate n ' ' ++ rest, m⟩ columns true released count) columns (said released)
      (m.column + n) rest :=
  ⟨_, _, _, _, m.along n, rfl, rfl, rfl, toNextToken_spaces n h rfl _⟩

theorem ahead_break {rest : List Char} (h : Begins rest) (n : Nat) (m : Mark) (columns : List Nat) (allowed : Bool)
    (released : List Token) (count : Nat) :
    Ahead (clear ⟨'\n' :: (List.replicate n ' ' ++ rest), m⟩ columns allowed released count) columns (said released) n
      rest := by
  refine ⟨_, _, _, _, (m.newLine 1).along n, rfl, rfl, Nat.zero_add n, ?_⟩
  rw [toNextToken_break]
  exact toNextToken_spaces n h rfl _

theorem begins_word (w : Word) (rest : List Char) : Begins (w.text ++ rest) := by
  obtain ⟨ch, more, htext⟩ := List.exists_cons_of_ne_nil w.ne_nil
  have hchar : isWordChar ch = true := w.chars ch (by simp [htext])
  rw [htext]
  refine begins_cons ⟨isPrintable_of_isWordChar hchar, ne_space_of_isWordChar hchar, ?_⟩ (more ++ rest)
  rintro rfl
  exact absurd hchar (by decide)

theorem begins_written (w : Written) (rest : List Char) : Begins (w.chars ++ rest) := by
  cases w with
  | word w => exact begins_word w rest
  | quoted capitals text => exact begins_cons (by decide) _

/-- The value behind a key is read, and the next line is ahead. -/
theorem next_value (w : Written) {column n : Nat} (hinside : column ≤ m.column) (hindent : n ≤ column)
    {rest : List Char} (h : Begins rest) (columns : List Nat) (released : List Token) (count : Nat) :
    ∃ s, (clear ⟨' ' :: (w.chars ++ '\n' :: (List.replicate n ' ' ++ rest)), m⟩ (column :: columns) false released
      count).next = .ok s ∧ Ahead s (column :: columns) (said released ++ [w.kind]) n rest := by
  have htoken := toNextToken_spaces (s := clear ⟨' ' :: (w.chars ++ '\n' :: (List.replicate n ' ' ++ rest)), m⟩
    (column :: columns) false released count) 1 (begins_written w ('\n' :: (List.replicate n ' ' ++ rest))) rfl
  have hbehind : ∀ outer, (column :: columns).head? = some outer → outer ≤ (m.along 1).column := by
    intro outer houter
    obtain rfl := Option.some.inj houter
    exact Nat.le_succ_of_le hinside
  have hsaid : ∀ t : Token, said (t :: released) = said released ++ [t.kind] := by simp [said]
  cases w with
  | word w =>
    obtain ⟨stop, after, hafter, htake⟩ := takeToken_word_line w hindent h.solid (m.along 1) columns released count
    refine ⟨_, next_released (htoken _) hbehind htake, ?_⟩
    have hahead := ahead_spaces h 0 after (column :: columns) (⟨.scalar w.text .plain, m.along 1, stop⟩ :: released)
      (count + 1)
    rwa [hsaid, hafter] at hahead
  | quoted capitals text =>
    obtain ⟨stop, htake⟩ := takeToken_quoted capitals text ('\n' :: (List.replicate n ' ' ++ rest)) (m.along 1)
      (column :: columns) released count
    refine ⟨_, next_released (htoken _) hbehind htake, ?_⟩
    have hahead := ahead_break h n stop (column :: columns) false
      (⟨.scalar text .doubleQuoted, m.along 1, stop⟩ :: released) (count + 1)
    rwa [hsaid] at hahead

/-- The scan comes from `s` to `s'` in so many steps. -/
def Comes (steps : Nat) (s s' : Scan) : Prop := ∀ fuel, run (fuel + steps) s = run fuel s'

theorem comes_next {s s' : Scan} (h : .streamEnd ∉ said s.released) (hnext : s.next = .ok s') : Comes 1 s s' := by
  have hunfinished : s.isFinished = false := by
    unfold isFinished
    split
    case h_1 t released hreleased =>
      rw [hreleased] at h
      simp only [said, List.reverse_cons, List.map_append, List.mem_append, not_or] at h
      exact beq_eq_false_iff_ne.2 fun hkind => h.2 (by simp [hkind])
    case h_2 => rfl
  intro fuel
  rw [run]
  simp only [hunfinished, hnext, Bool.false_eq_true, if_false]

theorem Comes.trans {n k : Nat} {s s' s'' : Scan} (h : Comes n s s') (h' : Comes k s' s'') : Comes (n + k) s s'' := by
  intro fuel
  rw [Nat.add_comm n k, ← Nat.add_assoc, h, h']

theorem said_behind (tokens released : List Token) :
    said (tokens.reverse ++ released) = said released ++ tokens.map (·.kind) := by
  simp [said]

/-- The key of a line and its colon are read, behind what they end and begin. -/
theorem Ahead.key {s : Scan} {kinds : List Kind} {key : Key} {column : Nat} {rest : List Char}
    (hahead : Ahead s columns kinds column (key.text ++ ':' :: rest)) (hrest : endsWord rest = true)
    (hkinds : .streamEnd ∉ kinds) :
    ∃ m released count, column ≤ m.column ∧
      Comes 2 s (clear ⟨rest, m⟩ (Line.entered (Line.remaining columns column) column) false released count) ∧
      said released = kinds ++ ((Line.ended columns column).map (fun _ => .blockEnd) ++
        (Line.entering (Line.remaining columns column) column ++ [.key, .scalar key.text .plain, .value])) := by
  obtain ⟨c, allowed, released, count, m, rfl, rfl, rfl, htoken⟩ := hahead
  obtain ⟨required, hkey⟩ := next_key key hrest htoken
  have hcolon := next_colon hrest key.short m required ⟨.scalar key.text .plain, m, m.along key.text.length⟩
    (fun column => @Line.le_of_remaining columns m.column column)
    (((Line.ended columns m.column).map fun _ => ⟨.blockEnd, m, m⟩).reverse ++ released)
    (count + (Line.ended columns m.column).length)
  have hends : .streamEnd ∉
      said (((Line.ended columns m.column).map fun _ => (⟨.blockEnd, m, m⟩ : Token)).reverse ++ released) := by
    rw [said_behind, List.mem_append, not_or]
    exact ⟨hkinds, by simp⟩
  refine ⟨_, _, _, ?_, (comes_next hkinds hkey).trans (comes_next hends hcolon), ?_⟩
  · simp only [Mark.next, Mark.along]
    omega
  · rw [said_behind, said_behind]
    simp [opened, Function.comp_def]

/-- The scan comes from one line to the next, and has read the tokens in between. -/
theorem Ahead.line {s : Scan} {kinds : List Kind} (l : Line) {n : Nat} {rest : List Char}
    (hahead : Ahead s columns kinds l.indent (l.fromKey (List.replicate n ' ' ++ rest))) (hrest : Begins rest)
    (hfollows : l.value.isSome → n ≤ l.indent) (hkinds : .streamEnd ∉ kinds) :
    ∃ steps s', steps ≤ 3 ∧ Comes steps s s' ∧
      Ahead s' (Line.entered (Line.remaining columns l.indent) l.indent)
        (kinds ++ ((Line.ended columns l.indent).map (fun _ => .blockEnd) ++
          (Line.entering (Line.remaining columns l.indent) l.indent ++ l.kinds))) n rest := by
  obtain ⟨indent, key, value⟩ := l
  cases value with
  | none =>
    obtain ⟨m, released, count, -, hcomes, hsaid⟩ := hahead.key rfl hkinds
    refine ⟨2, _, by omega, hcomes, ?_⟩
    have hnext := ahead_break hrest n m (Line.entered (Line.remaining columns indent) indent) false released count
    rwa [hsaid] at hnext
  | some w =>
    obtain ⟨m, released, count, hcolumn, hcomes, hsaid⟩ := hahead.key rfl hkinds
    obtain ⟨outer, hentered⟩ := Line.entered_remaining columns indent
    obtain ⟨s', hnext, hnextahead⟩ := next_value w hcolumn (hfollows rfl) hrest outer released count
    have hunfinished : .streamEnd ∉ said released := by
      rw [hsaid]
      simp [hkinds, Line.entering]
    simp only [hentered] at hcomes
    refine ⟨3, s', by omega, hcomes.trans (comes_next hunfinished hnext), ?_⟩
    rw [hsaid] at hnextahead
    simpa [hentered, Line.kinds] using hnextahead

theorem closeBlocks_zero {s : Scan} (houter : s.outer = []) : s.closeBlocks 0 =
    { s with columns := [], held := s.held ++ s.columns.map fun _ => ⟨.blockEnd, s.cursor.mark, s.cursor.mark⟩ } := by
  have hall : ∀ columns : List Nat, columns.takeWhile (0 ≤ ·) = columns ∧ columns.dropWhile (0 ≤ ·) = [] := by
    intro columns
    induction columns <;> simp_all
  simp only [closeBlocks, inFlow, houter, hall]
  rfl

/-- At the end of the text all blocks end. -/
theorem Ahead.finish {s : Scan} {kinds : List Kind} (h : Ahead s columns kinds 0 []) (hkinds : .streamEnd ∉ kinds) :
    ∃ tokens, (∀ fuel, run (fuel + 1) s = (tokens, none)) ∧
      tokens.map (·.kind) = kinds ++ (columns.map (fun _ => .blockEnd) ++ [.streamEnd]) := by
  obtain ⟨c, allowed, released, count, m, rfl, rfl, hcolumn, htoken⟩ := h
  generalize hends : (Line.ended columns m.column ++ Line.remaining columns m.column).map
    (fun _ => (⟨.blockEnd, m, m⟩ : Token)) = ends
  generalize htokens : ends ++ [(⟨.streamEnd, m, m⟩ : Token)] = tokens
  have htake : ((clear ⟨[], m⟩ columns true released count).closeBlocks (m.column + 1)).takeToken =
      .ok ⟨⟨[], m⟩, [], false, none, [], released, count, tokens⟩ := by
    rw [closeBlocks_clear, ← htokens, ← hends]
    simp only [takeToken, takeEnd, clear, hcolumn, if_true, closeBlocks_zero, dropCandidate, ok_bind, pushMark, push,
      List.map_append]
    rfl
  have hnext : (clear c columns allowed released count).next =
      .ok (clear ⟨[], m⟩ [] false (tokens.reverse ++ released) (count + tokens.length)) := by
    rw [next, show (clear c columns allowed released count).cursor = c from rfl, htoken, dropStale_clear, ok_bind,
      show (clear ⟨[], m⟩ columns true released count).cursor.mark = m from rfl, htake, ok_bind,
      dropStale_of_none rfl rfl, ok_bind, release_of_none]
  have hfinished :
      (clear ⟨[], m⟩ [] false (tokens.reverse ++ released) (count + tokens.length)).isFinished = true := by
    simp [isFinished, clear, ← htokens]
  refine ⟨(tokens.reverse ++ released).reverse, fun fuel => ?_, ?_⟩
  · rw [comes_next hkinds hnext]
    cases fuel with
    | zero => rfl
    | succ fuel =>
      rw [run, if_pos hfinished]
      rfl
  · have hall : Line.ended columns m.column ++ Line.remaining columns m.column = columns :=
      List.takeWhile_append_dropWhile
    rw [show (tokens.reverse ++ released).reverse.map (·.kind) = said (tokens.reverse ++ released) from rfl,
      said_behind, ← htokens, ← hends, hall]
    simp

theorem begins_textFromKey (ls : List Line) : Begins (Line.textFromKey ls) := by
  cases ls with
  | nil => exact ⟨solid_nil, fun _ h => (nomatch h), fun _ h => nomatch h⟩
  | cons l ls => exact begins_word l.key.toWord _

/-- Line by line the scan comes to the end of the text, in three steps at most for each. -/
theorem run_lines {ls : List Line} (hfollows : ls.IsChain Line.Follows) {s : Scan} {kinds : List Kind}
    (hahead : Ahead s columns kinds (Line.firstIndent ls) (Line.textFromKey ls)) (hkinds : .streamEnd ∉ kinds)
    {fuel : Nat} (hfuel : 3 * ls.length < fuel) :
    ∃ tokens, run fuel s = (tokens, none) ∧ tokens.map (·.kind) = kinds ++ Line.kindsFrom columns ls := by
  -- The tokens so far and the open blocks change with each line, so both are general in the induction.
  induction ls generalizing s columns kinds fuel with
  | nil =>
    obtain ⟨tokens, hrun, htokens⟩ := hahead.finish hkinds
    obtain ⟨fuel, rfl⟩ := Nat.exists_eq_succ_of_ne_zero (Nat.ne_of_gt hfuel)
    exact ⟨tokens, hrun fuel, htokens⟩
  | cons l ls ih =>
    have hindent : l.value.isSome → Line.firstIndent ls ≤ l.indent := by
      cases ls with
      | nil => exact fun _ => Nat.zero_le _
      | cons next ls => exact (List.isChain_cons_cons.1 hfollows).1
    have hline : Line.textFromKey (l :: ls) =
        l.fromKey (List.replicate (Line.firstIndent ls) ' ' ++ Line.textFromKey ls) := by
      rw [← Line.text_eq]
      rfl
    rw [hline] at hahead
    obtain ⟨steps, s', hsteps, hcomes, hnext⟩ := hahead.line l (begins_textFromKey ls) hindent hkinds
    have hmore : .streamEnd ∉ kinds ++ ((Line.ended columns l.indent).map (fun _ => .blockEnd) ++
        (Line.entering (Line.remaining columns l.indent) l.indent ++ l.kinds)) := by
      simp [hkinds, Line.streamEnd_not_mem_entering, l.streamEnd_not_mem_kinds]
    rw [List.length_cons] at hfuel
    have henough : steps ≤ fuel := by omega
    obtain ⟨fuel, rfl⟩ := Nat.exists_eq_add_of_le' henough
    have hless : 3 * ls.length < fuel := by omega
    obtain ⟨tokens, hrun, htokens⟩ := ih hfollows.tail hnext hmore hless
    refine ⟨tokens, (hcomes fuel).trans hrun, ?_⟩
    rw [htokens, Line.kindsFrom]
    simp only [List.append_assoc]

end Token.Scan

/-- The scan of a block text has the tokens of its lines. -/
theorem Token.scan_lines {ls : List Line} (hfollows : ls.IsChain Line.Follows) :
    ∃ tokens, Token.scan (Line.text ls) = (tokens, none) ∧ tokens.map (·.kind) = Line.kindsFrom [] ls := by
  have hstart : Scan.Ahead (Scan.start (Line.text ls)) [] [] (Line.firstIndent ls) (Line.textFromKey ls) := by
    have h := Scan.ahead_spaces (Scan.begins_textFromKey ls) (Line.firstIndent ls) Mark.start [] [] 0
    rw [← Line.text_eq, show Mark.start.column + Line.firstIndent ls = Line.firstIndent ls from Nat.zero_add _] at h
    exact h
  have hfuel : 3 * ls.length < (Line.text ls).length + 2 := by
    have := Line.length_text ls
    omega
  have hallowed : forbiddenAt? (Line.text ls) = none := forbiddenAt?_eq_none fun c => Line.isAllowed_of_mem_text
  obtain ⟨tokens, hrun, htokens⟩ := Scan.run_lines hfollows hstart List.not_mem_nil hfuel
  refine ⟨tokens, ?_, by simpa using htokens⟩
  rw [Token.scan, hallowed]
  exact hrun

end AgentHost.Yaml
