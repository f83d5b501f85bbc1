import AgentHost.Proofs.Except
import AgentHost.Yaml.Token.Plain
import AgentHost.Yaml.Token.Quoted
/-!
# Scalars are read back as they were written

A text is written between double quotes, with everything that is not printable as
the eight digits of its code point, and a word as it stands. The readers of
scalars give the text back and stop right behind it (`Quoted.read_quoted`,
`Plain.read_word`, `Plain.read_word_line`).
-/

namespace AgentHost.Yaml

/-! ## Writing -/

/-- A character between a space and a tilde. -/
def isPrintable (c : Char) : Bool := ' ' ≤ c && c ≤ '~'

/-- A digit below sixteen, in capitals or not. -/
def hexDigit (capitals : Bool) (d : Nat) : Char :=
  if d < 10 then Char.ofNat (48 + d) else Char.ofNat ((if capitals then 55 else 87) + d)

/-- The last `count` hexadecimal digits of a number. -/
def hexDigits (capitals : Bool) : Nat → Nat → List Char
  | 0, _ => []
  | count + 1, n => hexDigits capitals count (n / 16) ++ [hexDigit capitals (n % 16)]

/-- A character between double quotes. -/
def quotedChar (capitals : Bool) (c : Char) : List Char :=
  if c = '"' ∨ c = '\\' then ['\\', c]
  else if isPrintable c then [c]
  else '\\' :: 'U' :: hexDigits capitals 8 c.toNat

/-- A text between double quotes. -/
def quoted (capitals : Bool) (text : List Char) : List Char :=
  '"' :: (text.flatMap (quotedChar capitals) ++ ['"'])

/-- A character of a word: a letter, a digit or an underscore. -/
def isWordChar (c : Char) : Bool := c.isAlphanum || c == '_'

/-- One character of a word or more. -/
structure Word where
  text : List Char
  ne_nil : text ≠ []
  chars : ∀ c ∈ text, isWordChar c = true

/-! ## Kinds of characters -/

theorem isGap_of_isPrintable {c : Char} (h : isPrintable c = true) (hspace : c ≠ ' ') : isGap c = false := by
  simp only [isGap, isBlank, isBreak, Bool.or_eq_false_iff, beq_eq_false_iff_ne]
  refine ⟨⟨hspace, ?_⟩, ⟨⟨⟨?_, ?_⟩, ?_⟩, ?_⟩, ?_⟩ <;> (rintro rfl; exact absurd h (by decide))

theorem isPrintable_of_isWordChar {c : Char} (h : isWordChar c = true) : isPrintable c = true := by
  have hrange : ∀ low high : UInt32, ' '.val ≤ low → high ≤ '~'.val → low ≤ c.val ∧ c.val ≤ high →
      isPrintable c = true :=
    fun low high hlow hhigh hc => Bool.and_eq_true_iff.2
      ⟨decide_eq_true (UInt32.le_trans hlow hc.1), decide_eq_true (UInt32.le_trans hc.2 hhigh)⟩
  have hboth : ∀ {p q : Prop} [Decidable p] [Decidable q], (decide p && decide q) = true → p ∧ q :=
    fun hc => (Bool.and_eq_true_iff.1 hc).imp of_decide_eq_true of_decide_eq_true
  have hcases : (c.isUpper || c.isLower || c.isDigit || c == '_') = true := h
  simp only [Bool.or_eq_true, beq_iff_eq] at hcases
  rcases hcases with ((hupper | hlower) | hdigit) | rfl
  · exact hrange 'A'.val 'Z'.val (by decide) (by decide) (of_decide_eq_true hupper)
  · exact hrange 'a'.val 'z'.val (by decide) (by decide) (hboth hlower)
  · exact hrange '0'.val '9'.val (by decide) (by decide) (hboth hdigit)
  · decide

theorem ne_space_of_isWordChar {c : Char} (h : isWordChar c = true) : c ≠ ' ' := by
  rintro rfl
  exact absurd h (by decide)

theorem isAllowed_of_isPrintable {c : Char} (h : isPrintable c = true) : isAllowed c = true := by
  have hrange : (' ' ≤ c && c ≤ '~') = true := h
  simp [isAllowed, hrange]

/-- A text of characters that are allowed holds no other. -/
theorem forbiddenAt?_eq_none {text : List Char} (h : ∀ c ∈ text, isAllowed c = true) :
    forbiddenAt? text = none := by
  have hall : text.takeWhile isAllowed = text := by
    have hnil : (text ++ []).takeWhile isAllowed = text ++ List.takeWhile isAllowed [] :=
      List.takeWhile_append_of_pos h
    simpa using hnil
  simp [forbiddenAt?, hall]

/-! ## Places on a line -/

/-- The place behind `n` characters of the same line. -/
def Mark.along (m : Mark) (n : Nat) : Mark := ⟨m.index + n, m.line, m.column + n⟩

@[simp] theorem Mark.along_zero (m : Mark) : m.along 0 = m := rfl

@[simp] theorem Mark.next_along (m : Mark) (n : Nat) : m.next.along n = m.along (n + 1) := by
  simp only [next, along, Mark.mk.injEq, true_and]
  omega

@[simp] theorem Mark.along_along (m : Mark) (n k : Nat) : (m.along n).along k = m.along (n + k) := by
  simp only [along, Nat.add_assoc]

@[simp] theorem Cursor.advance_append (xs rest : List Char) (m : Mark) :
    (Cursor.mk (xs ++ rest) m).advance xs.length = ⟨rest, m.along xs.length⟩ := by
  induction xs generalizing m with
  | nil => rfl
  | cons x xs ih =>
    show (Cursor.mk (xs ++ rest) m.next).advance xs.length = _
    rw [ih, Mark.next_along, List.length_cons]

/-- The text starts with nothing that a gap could go on with. -/
def Solid (text : List Char) : Prop := ∀ c, text.head? = some c → isGap c = false

theorem solid_nil : Solid [] := fun _ h => nomatch h

theorem solid_cons {c : Char} (h : isGap c = false) (rest : List Char) : Solid (c :: rest) := by
  intro d hd
  obtain rfl := Option.some.inj hd
  exact h

namespace Gap

/-- A gap that has some spaces behind it. -/
def addSpaces (g : Gap) (n : Nat) : Gap := (List.replicate n ' ').foldl addBlank g

theorem addSpaces_broken {g : Gap} (h : g.broken = true) (n : Nat) : g.addSpaces n = g := by
  induction n with
  | zero => rfl
  | succ n ih => rwa [addSpaces, List.replicate_succ, List.foldl_cons, addBlank, if_pos h]

theorem addSpaces_unbroken (blanks : List Char) (n : Nat) :
    addSpaces ⟨blanks, false, [], []⟩ n = ⟨blanks ++ List.replicate n ' ', false, [], []⟩ := by
  induction n generalizing blanks with
  | zero => simp [addSpaces]
  | succ n ih =>
    have := ih (blanks ++ [' '])
    simpa [addSpaces, addBlank, List.replicate_succ] using this

theorem read_solid (margin : Nat) (g : Gap) {rest : List Char} (h : Solid rest) (m : Mark) :
    read margin g rest m = .ok (g, ⟨rest, m⟩) := by
  unfold read
  split
  case h_1 => rfl
  case h_2 => exact absurd (h _ rfl) (by decide)
  case h_3 =>
    obtain ⟨hblank, hbreak⟩ := Bool.or_eq_false_iff.1 (h _ rfl)
    simp [hblank, hbreak]

/-- A gap goes on over spaces up to where the text is solid. -/
theorem read_spaces (margin n : Nat) (g : Gap) {rest : List Char} (h : Solid rest) (m : Mark) :
    read margin g (List.replicate n ' ' ++ rest) m = .ok (g.addSpaces n, ⟨rest, m.along n⟩) := by
  induction n generalizing g m with
  | zero => exact read_solid margin g h m
  | succ n ih =>
    have hspace : read margin g (' ' :: (List.replicate n ' ' ++ rest)) m =
        read margin (g.addBlank ' ') (List.replicate n ' ' ++ rest) m.next := by
      simp [read, isBreak, isBlank]
    rw [List.replicate_succ, List.cons_append, hspace, ih]
    simp [addSpaces, List.replicate_succ]

end Gap

/-! ## Escapes -/

theorem hexValue?_hexDigit (capitals : Bool) {d : Nat} (h : d < 16) :
    hexValue? (hexDigit capitals d) = some d := by
  have hall : ∀ capitals, ∀ d : Fin 16, hexValue? (hexDigit capitals d.val) = some d.val := by decide
  exact hall capitals ⟨d, h⟩

theorem isPrintable_of_mem_hexDigits {capitals : Bool} {count n : Nat} {c : Char}
    (h : c ∈ hexDigits capitals count n) : isPrintable c = true := by
  have hall : ∀ capitals, ∀ d : Fin 16, isPrintable (hexDigit capitals d.val) = true := by decide
  induction count generalizing n with
  | zero => cases h
  | succ count ih =>
    rcases List.mem_append.1 h with hmore | hlast
    · exact ih hmore
    · rw [List.mem_singleton.1 hlast]
      exact hall capitals ⟨n % 16, Nat.mod_lt n (by decide)⟩

theorem isPrintable_of_mem_quoted {capitals : Bool} {text : List Char} {c : Char}
    (h : c ∈ quoted capitals text) : isPrintable c = true := by
  have hchar : ∀ d, c ∈ quotedChar capitals d → isPrintable c = true := by
    intro d hd
    unfold quotedChar at hd
    split at hd
    case isTrue hescaped => rcases hescaped with rfl | rfl <;> (simp at hd; rcases hd with rfl | rfl <;> decide)
    case isFalse =>
      split at hd
      case isTrue hprintable => rwa [List.mem_singleton.1 hd]
      case isFalse =>
        simp only [List.mem_cons] at hd
        rcases hd with rfl | rfl | hdigits
        · decide
        · decide
        · exact isPrintable_of_mem_hexDigits hdigits
  simp only [quoted, List.mem_cons, List.mem_append, List.mem_flatMap, List.not_mem_nil, or_false] at h
  rcases h with rfl | ⟨d, -, hd⟩ | rfl
  · decide
  · exact hchar d hd
  · decide

theorem length_hexDigits (capitals : Bool) (count n : Nat) : (hexDigits capitals count n).length = count := by
  induction count generalizing n with
  | zero => rfl
  | succ count ih => simp [hexDigits, ih]

namespace Quoted

theorem hexNumber?_append (value : Nat) (xs ys : List Char) :
    hexNumber? value (xs.length + 1) (xs ++ ys) =
      (hexNumber? value xs.length (xs ++ ys)).bind fun v => hexNumber? v 1 ys := by
  induction xs generalizing value with
  | nil => rfl
  | cons x xs ih =>
    simp only [List.cons_append, List.length_cons, hexNumber?]
    cases hexValue? x with
    | none => rfl
    | some d => exact ih _

/-- The digits of a number are read back, whatever follows them. -/
theorem hexNumber?_hexDigits (capitals : Bool) {count n : Nat} (h : n < Nat.pow 16 count) (rest : List Char) :
    hexNumber? 0 count (hexDigits capitals count n ++ rest) = some n := by
  induction count generalizing n rest with
  | zero =>
    obtain rfl : n = 0 := Nat.lt_one_iff.1 h
    rfl
  | succ count ih =>
    have htens : n / 16 < Nat.pow 16 count := Nat.div_lt_of_lt_mul (by rwa [Nat.mul_comm])
    have hmore := hexNumber?_append 0 (hexDigits capitals count (n / 16)) (hexDigit capitals (n % 16) :: rest)
    rw [length_hexDigits, ih htens, Option.bind_some] at hmore
    rw [hexDigits, List.append_assoc, List.singleton_append, hmore, hexNumber?,
      hexValue?_hexDigit _ (Nat.mod_lt n (by decide))]
    simp only [hexNumber?, Option.some.injEq]
    omega

theorem codePoint?_toNat (c : Char) : codePoint? c.toNat = some c := by
  have hvalid : c.toNat < 0xD800 ∨ (0xDFFF < c.toNat ∧ c.toNat < 0x110000) := c.valid
  rw [codePoint?, if_neg (by omega), Char.ofNat_toNat]

theorem toNat_lt_pow (c : Char) : c.toNat < Nat.pow 16 8 := by
  have hvalid : c.toNat < 0xD800 ∨ (0xDFFF < c.toNat ∧ c.toNat < 0x110000) := c.valid
  have hpow : Nat.pow 16 8 = 4294967296 := by decide
  omega

/-! ## Between quotes -/

theorem quotedChar_space (capitals : Bool) : quotedChar capitals ' ' = [' '] := by
  cases capitals <;> decide

/-- A character that is no space is one step of a quoted text. -/
theorem stepDouble_quotedChar (capitals : Bool) (began m : Mark) {c : Char} (h : c ≠ ' ') (rest : List Char) :
    stepDouble began ⟨quotedChar capitals c ++ rest, m⟩ =
      .ok (.char c ⟨rest, m.along (quotedChar capitals c).length⟩) := by
  unfold quotedChar
  split
  case isTrue hescaped => rcases hescaped with rfl | rfl <;> rfl
  case isFalse hplain =>
    obtain ⟨hquote, hbackslash⟩ := not_or.1 hplain
    split
    case isTrue hprintable =>
      have hgap := isGap_of_isPrintable hprintable h
      unfold stepDouble
      split <;> simp_all [Cursor.skip, Mark.along, Mark.next]
    case isFalse =>
      have hdigits := hexNumber?_hexDigits capitals (toNat_lt_pow c) rest
      have hadvance := Cursor.advance_append (hexDigits capitals 8 c.toNat) rest (m.along 2)
      rw [length_hexDigits] at hadvance
      show (readEscape began ⟨'\\' :: 'U' :: (hexDigits capitals 8 c.toNat ++ rest), m⟩).map _ = _
      have hread : readEscape began ⟨'\\' :: 'U' :: (hexDigits capitals 8 c.toNat ++ rest), m⟩ =
          .ok (c, ⟨rest, (m.along 2).along 8⟩) := by
        have hstart : Cursor.advance ⟨'\\' :: 'U' :: (hexDigits capitals 8 c.toNat ++ rest), m⟩ 2 =
            ⟨hexDigits capitals 8 c.toNat ++ rest, m.along 2⟩ := rfl
        simp only [readEscape, List.drop_succ_cons, List.drop_zero, List.head?_cons, Option.bind_some, escape?, hstart,
          hdigits, codePoint?_toNat, hadvance]
      rw [hread]
      simp [Except.map, length_hexDigits]

theorem body_char {began : Mark} {fuel : Nat} {c after : Cursor} {ch : Char} (hrest : c.rest ≠ [])
    (hstep : stepDouble began c = .ok (.char ch after)) :
    body true began (fuel + 1) c = (body true began fuel after).map fun r => (ch :: r.1, r.2) := by
  have hempty : c.rest.isEmpty = false := by simpa using hrest
  simp only [body, hempty, hstep, Bool.false_eq_true, if_false, if_true, ok_bind]
  cases body true began fuel after <;> rfl

/-- Some spaces on a line are one step. -/
theorem body_spaces (began m : Mark) (fuel n : Nat) {rest : List Char} (h : Solid rest) :
    body true began (fuel + 1) ⟨List.replicate (n + 1) ' ' ++ rest, m⟩ =
      (body true began fuel ⟨rest, m.along (n + 1)⟩).map fun r => (List.replicate (n + 1) ' ' ++ r.1, r.2) := by
  have hstep : stepDouble began ⟨List.replicate (n + 1) ' ' ++ rest, m⟩ =
      .ok (.gap Gap.none ⟨List.replicate (n + 1) ' ' ++ rest, m⟩) := by
    simp [List.replicate_succ, stepDouble, isGap, isBlank]
  have htext : (Gap.none.addSpaces (n + 1)).text = List.replicate (n + 1) ' ' := by
    rw [Gap.none, Gap.addSpaces_unbroken]
    rfl
  have hindicator : (Cursor.mk rest (m.along (n + 1))).atDocumentIndicator = false := by
    simp [Cursor.atDocumentIndicator, Mark.along]
  have hempty : (List.replicate (n + 1) ' ' ++ rest).isEmpty = false := by simp [List.replicate_succ]
  simp only [body, hempty, hstep, Bool.false_eq_true, if_false, if_true, ok_bind,
    Gap.read_spaces 0 (n + 1) Gap.none h, hindicator, htext]
  cases body true began fuel ⟨rest, m.along (n + 1)⟩ <;> rfl

theorem exists_spaces (text : List Char) :
    ∃ n more, text = List.replicate n ' ' ++ more ∧ more.head? ≠ some ' ' := by
  induction text with
  | nil => exact ⟨0, [], rfl, by simp⟩
  | cons c text ih =>
    by_cases hspace : c = ' '
    · obtain ⟨n, more, rfl, hmore⟩ := ih
      exact ⟨n + 1, more, by rw [hspace, List.replicate_succ, List.cons_append], hmore⟩
    · exact ⟨0, c :: text, rfl, by simpa using hspace⟩

theorem flatMap_spaces (capitals : Bool) (n : Nat) :
    (List.replicate n ' ').flatMap (quotedChar capitals) = List.replicate n ' ' := by
  induction n with
  | zero => rfl
  | succ n ih => rw [List.replicate_succ, List.flatMap_cons, ih, quotedChar_space, List.singleton_append]

/-- A quoted text goes on solidly where the next character is no space. -/
theorem solid_quoted (capitals : Bool) {text : List Char} (h : text.head? ≠ some ' ') (rest : List Char) :
    Solid (text.flatMap (quotedChar capitals) ++ '"' :: rest) := by
  cases text with
  | nil => exact solid_cons (by decide) _
  | cons c text =>
    have hspace : c ≠ ' ' := by simpa using h
    rw [List.flatMap_cons, quotedChar]
    split
    case isTrue => exact solid_cons (by decide) _
    case isFalse =>
      split
      case isTrue hprintable => exact solid_cons (isGap_of_isPrintable hprintable hspace) _
      case isFalse => exact solid_cons (by decide) _

/-- Each step takes a character or all spaces in front of the next one. -/
theorem body_quoted (capitals : Bool) (began : Mark) {fuel : Nat} {text : List Char} (hfuel : text.length < fuel)
    (rest : List Char) (m : Mark) :
    body true began fuel ⟨text.flatMap (quotedChar capitals) ++ '"' :: rest, m⟩ =
      .ok (text, ⟨'"' :: rest, m.along (text.flatMap (quotedChar capitals)).length⟩) := by
  induction fuel generalizing text m with
  | zero => exact absurd hfuel (Nat.not_lt_zero _)
  | succ fuel ih =>
    -- The reader folds a run of spaces into one gap, so the text is split by runs and not by characters.
    obtain ⟨n, more, rfl, hmore⟩ := exists_spaces text
    cases n with
    | succ n =>
      have hless : more.length < fuel := by
        simp only [List.length_append, List.length_replicate] at hfuel
        omega
      rw [List.flatMap_append, flatMap_spaces, List.append_assoc,
        body_spaces began m fuel n (solid_quoted capitals hmore rest), ih hless]
      simp [Except.map]
    | zero =>
      cases more with
      | nil => rfl
      | cons c more =>
        have hspace : c ≠ ' ' := by simpa using hmore
        have hless : more.length < fuel := by simpa using hfuel
        have hstep := stepDouble_quotedChar capitals began m hspace
          (more.flatMap (quotedChar capitals) ++ '"' :: rest)
        rw [List.replicate_zero, List.nil_append, List.flatMap_cons, List.append_assoc,
          body_char (by simp) hstep, ih hless]
        simp [Except.map]

/-- The writer makes a text no shorter. -/
theorem length_le_flatMap (capitals : Bool) (text : List Char) :
    text.length ≤ (text.flatMap (quotedChar capitals)).length := by
  have hone : ∀ c, 1 ≤ (quotedChar capitals c).length := by
    intro c
    unfold quotedChar
    split
    · simp
    · split <;> simp
  induction text with
  | nil => simp
  | cons c text ih =>
    have := hone c
    simp only [List.flatMap_cons, List.length_append, List.length_cons]
    omega

/-- A text between quotes is read back, and the cursor is behind the closing quote. -/
theorem read_quoted (capitals : Bool) (text rest : List Char) (m : Mark) :
    ∃ stop, read true ⟨quoted capitals text ++ rest, m⟩ =
      .ok (⟨.scalar text .doubleQuoted, m, stop⟩, ⟨rest, stop⟩) := by
  have hfuel : text.length < (quoted capitals text ++ rest).length + 1 := by
    have := length_le_flatMap capitals text
    simp only [quoted, List.length_append, List.length_cons]
    omega
  have hbody := body_quoted capitals m hfuel rest m.next
  have hopen : Cursor.skip ⟨quoted capitals text ++ rest, m⟩ =
      ⟨text.flatMap (quotedChar capitals) ++ '"' :: rest, m.next⟩ := by
    simp [quoted, Cursor.skip]
  refine ⟨(m.next.along (text.flatMap (quotedChar capitals)).length).next, ?_⟩
  rw [read, hopen, hbody]
  rfl

end Quoted

/-! ## Words -/

namespace Plain

variable {margin : Nat} {began : Mark}

theorem step_wordChar {c : Char} (h : isWordChar c = true) (rest : List Char) :
    step false (c :: rest) = .char c := by
  have hgap := isGap_of_isPrintable (isPrintable_of_isWordChar h) (ne_space_of_isWordChar h)
  unfold step
  split
  case h_1 hnil => cases hnil
  case h_2 hcons =>
    obtain ⟨rfl, -⟩ := List.cons.inj hcons
    exact absurd h (by decide)
  case h_3 hcons =>
    obtain ⟨rfl, -⟩ := List.cons.inj hcons
    simp [hgap]

/-- A word is read character by character, and then what is behind it. -/
theorem body_word {word : List Char} (h : ∀ c ∈ word, isWordChar c = true) (fuel : Nat) (rest : List Char)
    (m : Mark) : body false margin began (word.length + fuel) Gap.none m ⟨word ++ rest, m⟩ =
      (body false margin began fuel Gap.none (m.along word.length) ⟨rest, m.along word.length⟩).map
        fun r => { r with text := word ++ r.text } := by
  induction word generalizing m with
  | nil =>
    rw [List.length_nil, Nat.zero_add, List.nil_append, Mark.along_zero]
    cases body false margin began fuel Gap.none m ⟨rest, m⟩ <;> rfl
  | cons c word ih =>
    have hstep := step_wordChar (h c List.mem_cons_self) (word ++ rest)
    have hmore := ih (fun d hd => h d (List.mem_cons_of_mem c hd)) m.next
    have hfuel : (c :: word).length + fuel = word.length + fuel + 1 := by
      rw [List.length_cons]
      omega
    have hafter : Cursor.skip ⟨c :: (word ++ rest), m⟩ = ⟨word ++ rest, m.next⟩ := rfl
    rw [hfuel, List.cons_append, body]
    simp only [hstep, hafter, hmore, Mark.next_along, List.length_cons]
    cases body false margin began fuel Gap.none (m.along (word.length + 1)) ⟨rest, m.along (word.length + 1)⟩ <;> rfl

theorem read_of_body {word : List Char} (h : ∀ c ∈ word, isWordChar c = true) {rest : List Char} {m : Mark}
    {broken : Bool} {after : Cursor}
    (hend : ∀ fuel, body false margin m (fuel + 1) Gap.none (m.along word.length) ⟨rest, m.along word.length⟩ =
      .ok ⟨[], m.along word.length, broken, after⟩) :
    read false margin ⟨word ++ rest, m⟩ = .ok (⟨.scalar word .plain, m, m.along word.length⟩, broken, after) := by
  have hfuel : 2 * (word ++ rest).length + 1 = word.length + (word.length + 2 * rest.length + 1) := by
    rw [List.length_append]
    omega
  rw [read, hfuel, body_word h, hend]
  simp [Except.map]

/-- A word in front of a colon that ends it is read back, and the cursor is on the colon. -/
theorem read_word (w : Word) {rest : List Char} (h : endsWord rest = true) (m : Mark) :
    read false margin ⟨w.text ++ ':' :: rest, m⟩ =
      .ok (⟨.scalar w.text .plain, m, m.along w.text.length⟩, false, ⟨':' :: rest, m.along w.text.length⟩) := by
  refine read_of_body w.chars fun fuel => ?_
  have hstep : step false (':' :: rest) = .finished := by simp [step, h]
  rw [body]
  simp only [hstep]
  rfl

/-- A word at the end of a line is read back, where the next line is not indented
to the margin. The cursor is where that line goes on. -/
theorem read_word_line (w : Word) {n : Nat} (hindent : n < margin) {rest : List Char} (h : Solid rest) (m : Mark) :
    ∃ stop after, after.column = n ∧
      read false margin ⟨w.text ++ '\n' :: (List.replicate n ' ' ++ rest), m⟩ =
        .ok (⟨.scalar w.text .plain, m, stop⟩, true, ⟨rest, after⟩) := by
  refine ⟨m.along w.text.length, ((m.along w.text.length).newLine 1).along n, Nat.zero_add n,
    read_of_body w.chars fun fuel => ?_⟩
  have hbroken : Gap.read margin Gap.none ('\n' :: (List.replicate n ' ' ++ rest)) (m.along w.text.length) =
      .ok (⟨[], true, ['\n'], []⟩, ⟨rest, ((m.along w.text.length).newLine 1).along n⟩) := by
    have hspaces := Gap.read_spaces margin n ⟨[], true, ['\n'], []⟩ h ((m.along w.text.length).newLine 1)
    rw [Gap.addSpaces_broken rfl] at hspaces
    rw [← hspaces]
    rfl
  have hcolumn : (((m.along w.text.length).newLine 1).along n).column < margin := by
    rwa [show (((m.along w.text.length).newLine 1).along n).column = n from Nat.zero_add n]
  rw [body]
  simp only [step, isGap, isBlank, isBreak, hbroken]
  simp [hcolumn]

end Plain

end AgentHost.Yaml
