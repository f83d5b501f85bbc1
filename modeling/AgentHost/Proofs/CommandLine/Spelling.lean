import AgentHost.CommandLine.Parse
import AgentHost.Proofs.Text.Utf8
import Mathlib.Data.List.TakeWhile
/-!
# One dash or two

A long option may be written behind two dashes or behind one, with a value behind
an equals sign or without. Written with one dash it gets its second one back,
unless its value is no text: then it stays as it is, and is read letter by letter.
-/

namespace AgentHost.CommandLine

open Text (Bytes)

/-! ## Spellings -/

/-- A long option and what stands behind its equals sign, if there is one. -/
structure Spelled where
  flag : Flag
  value : Option Bytes

namespace Spelled

/-- The option without its dashes. -/
def body (o : Spelled) : Bytes :=
  Text.Utf8.ofString o.flag.long ++ match o.value with
    | some value => equals :: value
    | none => []

/-- The option behind one dash. -/
def single (o : Spelled) : Bytes := dash :: o.body

/-- The option behind two dashes. -/
def double (o : Spelled) : Bytes := dash :: dash :: o.body

/-- The value is text, if there is one. -/
def IsText (o : Spelled) : Prop := ∀ value ∈ o.value, (Text.Utf8.decode? value).isSome = true

theorem name_ascii (flag : Flag) : ∀ b ∈ Text.Utf8.ofString flag.long, b < 0x80 := by
  have hall : (Text.Utf8.ofString flag.long).all (fun b => decide (b < 0x80)) = true := by
    cases flag <;> decide +kernel
  intro b hb
  exact of_decide_eq_true (List.all_eq_true.1 hall b hb)

theorem dashes_ascii : ∀ b ∈ [dash, dash], b < 0x80 := by
  intro b hb
  have hdash : b = dash := by simpa using hb
  rw [hdash]
  decide

theorem name_chars (flag : Flag) :
    (Text.Utf8.ofString flag.long).map (fun b => Char.ofNat b.toNat) = flag.long.toList := by
  cases flag <;> decide +kernel

theorem ofLong?_long (flag : Flag) : Flag.ofLong? flag.long.toList = some flag := by
  cases flag <;> decide +kernel

/-- No name holds an equals sign or a dash. -/
theorem name_plain (flag : Flag) : ∀ c ∈ flag.long.toList, c ≠ '=' ∧ c ≠ '-' := by
  have hall : flag.long.toList.all (fun c => c != '=' && c != '-') = true := by cases flag <;> decide +kernel
  intro c hc
  simpa using List.all_eq_true.1 hall c hc

/-- What the option spells behind its dashes. -/
theorem decode?_body (o : Spelled) :
    Text.Utf8.decode? o.body = match o.value with
      | some value => (Text.Utf8.decode? value).map fun cs => o.flag.long.toList ++ '=' :: cs
      | none => some o.flag.long.toList := by
  obtain ⟨flag, value⟩ := o
  rw [body, Text.Utf8.decode?_ascii_append (name_ascii flag), name_chars]
  cases value with
  | none =>
    show (Text.Utf8.decode? []).map _ = _
    simp [Text.Utf8.decode?, Text.Utf8.pieces]
  | some value =>
    show (Text.Utf8.decode? (equals :: value)).map _ = _
    rw [Text.Utf8.decode?_ascii (by decide), Option.map_map]
    rfl

theorem takeWhile_name (flag : Flag) (cs : List Char) :
    (flag.long.toList ++ '=' :: cs).takeWhile (· ≠ '=') = flag.long.toList := by
  rw [List.takeWhile_append_of_pos]
  · simp
  · intro c hc
    simpa using (name_plain flag c hc).1

/-- Behind one dash, the option is one whose name is known. -/
theorem isSingleDashLong_single (o : Spelled) {cs : List Char} (h : Text.Utf8.decode? o.body = some cs) :
    isSingleDashLong ('-' :: cs) = true := by
  rw [decode?_body] at h
  have hname : cs.takeWhile (· ≠ '=') = o.flag.long.toList := by
    split at h
    case h_1 =>
      obtain ⟨text, -, rfl⟩ := Option.map_eq_some_iff.1 h
      exact takeWhile_name _ _
    case h_2 =>
      cases h
      rw [List.takeWhile_eq_self_iff]
      intro c hc
      simpa using (name_plain o.flag c hc).1
  rw [isSingleDashLong, hname, ofLong?_long]
  rfl

theorem ofLong?_dash (cs : List Char) : Flag.ofLong? ('-' :: cs) = none := by
  rw [Flag.ofLong?, List.find?_eq_none]
  intro flag _ h
  have hname : flag.long.toList = '-' :: cs := by simpa using h
  exact (name_plain flag '-' (hname ▸ List.mem_cons_self)).2 rfl

/-- Behind two dashes, no option gets another. -/
theorem isSingleDashLong_double (cs : List Char) : isSingleDashLong ('-' :: '-' :: cs) = false := by
  simp [isSingleDashLong, ofLong?_dash]

theorem isText_iff (o : Spelled) : o.IsText ↔ (Text.Utf8.decode? o.body).isSome = true := by
  rw [decode?_body, IsText]
  cases o.value <;> simp

end Spelled

/-! ## Normal spellings -/

theorem normalizeOne_double (o : Spelled) : normalizeOne o.double = o.double := by
  have hdashes := Text.Utf8.decode?_ascii_append Spelled.dashes_ascii o.body
  rw [normalizeOne, show o.double = [dash, dash] ++ o.body from rfl, hdashes]
  cases Text.Utf8.decode? o.body with
  | none => rfl
  | some cs =>
    show (if isSingleDashLong ('-' :: '-' :: cs) = true then _ else _) = _
    rw [Spelled.isSingleDashLong_double]
    rfl

theorem normalizeOne_single (o : Spelled) : normalizeOne o.single =
    if (Text.Utf8.decode? o.body).isSome then o.double else o.single := by
  have hdash : Text.Utf8.decode? o.single = (Text.Utf8.decode? o.body).map ('-' :: ·) :=
    Text.Utf8.decode?_ascii (by decide) o.body
  rw [normalizeOne, hdash]
  cases h : Text.Utf8.decode? o.body with
  | none => rfl
  | some cs =>
    show (if isSingleDashLong ('-' :: cs) = true then _ else _) = _
    rw [o.isSingleDashLong_single h]
    rfl

/-! ## Chosen positions -/

/-- A long option stands at the position behind two dashes, and no bare `--` stands
between the name of the program and it. -/
def LongAt (args : List Bytes) (i : Nat) (o : Spelled) : Prop :=
  1 ≤ i ∧ escape ∉ (args.take i).tail ∧ args[i]? = some o.double

/-- The arguments with the first byte taken from those at the chosen positions. -/
def respell (chosen : Nat → Bool) (args : List Bytes) : List Bytes :=
  args.mapIdx fun i arg => if chosen i then arg.tail else arg

/-- The argument at the position is no text. -/
def isBrokenAt (args : List Bytes) (i : Nat) : Bool := (args[i]?.bind Text.Utf8.decode?).isNone

theorem respell_cons (chosen : Nat → Bool) (arg : Bytes) (rest : List Bytes) :
    respell chosen (arg :: rest) =
      (if chosen 0 then arg.tail else arg) :: respell (fun i => chosen (i + 1)) rest := by
  simp [respell, List.mapIdx_cons]

theorem respell_none {chosen : Nat → Bool} (h : ∀ i, chosen i = false) (args : List Bytes) :
    respell chosen args = args := by
  induction args generalizing chosen with
  | nil => rfl
  | cons arg rest ih =>
    rw [respell_cons, h 0, ih fun i => h (i + 1)]
    rfl

theorem length_body (o : Spelled) : 4 ≤ o.body.length := by
  have hname : 4 ≤ (Text.Utf8.ofString o.flag.long).length := by
    cases o.flag <;> decide +kernel
  rw [Spelled.body, List.length_append]
  omega

theorem double_ne_escape (o : Spelled) : o.double ≠ escape := by
  intro h
  have hlength := congrArg List.length h
  have := length_body o
  simp only [Spelled.double, escape, List.length_cons, List.length_nil] at hlength
  omega

theorem single_ne_escape (o : Spelled) : o.single ≠ escape := by
  intro h
  have hlength := congrArg List.length h
  have := length_body o
  simp only [Spelled.single, escape, List.length_cons, List.length_nil] at hlength
  omega

theorem normalizeOptions_cons {arg : Bytes} (h : arg ≠ escape) (rest : List Bytes) :
    normalizeOptions (arg :: rest) = normalizeOne arg :: normalizeOptions rest := by
  rw [normalizeOptions, if_neg h]

theorem normalizeOptions_escape (rest : List Bytes) : normalizeOptions (escape :: rest) = escape :: rest := by
  rw [normalizeOptions, if_pos rfl]

/-- Behind the name of the program: taking a dash from an option is undone, but where
the option is no text. The induction is on the arguments, and the positions move
along with them. -/
theorem normalizeOptions_respell {opts : List Bytes} {chosen : Nat → Bool}
    (h : ∀ i, chosen i = true → ∃ o : Spelled, escape ∉ opts.take i ∧ opts[i]? = some o.double) :
    normalizeOptions (respell chosen opts) =
      respell (fun i => chosen i && isBrokenAt opts i) (normalizeOptions opts) := by
  induction opts generalizing chosen with
  | nil => rfl
  | cons arg rest ih =>
    by_cases hescape : arg = escape
    · -- Nothing is chosen at a bare `--` or behind it.
      have hnone : ∀ i, chosen i = false := by
        intro i
        by_contra hchosen
        obtain ⟨o, hbefore, hhere⟩ := h i (by simpa using hchosen)
        cases i with
        | zero => exact double_ne_escape o ((Option.some.inj hhere).symm.trans hescape)
        | succ i => exact hbefore (by simp [hescape])
      rw [respell_none hnone, hescape, normalizeOptions_escape, respell_none]
      intro i
      rw [hnone i]
      rfl
    · have hrest : ∀ i, chosen (i + 1) = true → ∃ o : Spelled, escape ∉ rest.take i ∧ rest[i]? = some o.double := by
        intro i hchosen
        obtain ⟨o, hbefore, hhere⟩ := h (i + 1) hchosen
        exact ⟨o, fun hmem => hbefore (List.mem_cons_of_mem _ hmem), hhere⟩
      rw [respell_cons, normalizeOptions_cons hescape, respell_cons]
      by_cases hchosen : chosen 0 = true
      · obtain ⟨o, -, hhere⟩ := h 0 hchosen
        obtain rfl : arg = o.double := Option.some.inj hhere
        have htail : o.double.tail = o.single := rfl
        rw [if_pos hchosen, htail, normalizeOptions_cons (single_ne_escape o), ih hrest, normalizeOne_single,
          normalizeOne_double, htail]
        have hbroken : isBrokenAt (o.double :: rest) 0 = (Text.Utf8.decode? o.body).isNone := by
          show (Text.Utf8.decode? o.double).isNone = _
          rw [show o.double = [dash, dash] ++ o.body from rfl, Text.Utf8.decode?_ascii_append Spelled.dashes_ascii]
          simp
        rw [hchosen, hbroken]
        cases Text.Utf8.decode? o.body <;> rfl
      · rw [if_neg hchosen, normalizeOptions_cons hescape, ih hrest]
        simp only [hchosen, Bool.false_and, Bool.false_eq_true, if_false]
        rfl

theorem isBrokenAt_iff {args : List Bytes} {i : Nat} {o : Spelled} (h : LongAt args i o) :
    isBrokenAt args i = false ↔ o.IsText := by
  rw [o.isText_iff, isBrokenAt, h.2.2]
  show (Text.Utf8.decode? ([dash, dash] ++ o.body)).isNone = false ↔ _
  rw [Text.Utf8.decode?_ascii_append Spelled.dashes_ascii]
  cases Text.Utf8.decode? o.body <;> simp

theorem not_chosen_program {args : List Bytes} {chosen : Nat → Bool}
    (hchosen : ∀ i, chosen i = true → ∃ o, LongAt args i o) : chosen 0 = false := by
  by_contra hzero
  obtain ⟨o, hpositive, -⟩ := hchosen 0 (by simpa using hzero)
  cases hpositive

theorem normalize_respell {args : List Bytes} {chosen : Nat → Bool}
    (hchosen : ∀ i, chosen i = true → ∃ o, LongAt args i o) :
    normalize (respell chosen args) = respell (fun i => chosen i && isBrokenAt args i) (normalize args) := by
  cases args with
  | nil => rfl
  | cons program opts =>
    have hprogram := not_chosen_program hchosen
    have hopts : ∀ i, chosen (i + 1) = true → ∃ o : Spelled, escape ∉ opts.take i ∧ opts[i]? = some o.double := by
      intro i hi
      obtain ⟨o, -, hbefore, hhere⟩ := hchosen (i + 1) hi
      exact ⟨o, hbefore, hhere⟩
    rw [respell_cons, hprogram, normalize, normalize, respell_cons, hprogram]
    exact congrArg _ (normalizeOptions_respell hopts)

theorem programName_respell {args : List Bytes} {chosen : Nat → Bool}
    (hchosen : ∀ i, chosen i = true → ∃ o, LongAt args i o) :
    programName (normalize (respell chosen args)) = programName (normalize args) := by
  cases args with
  | nil => rfl
  | cons program opts =>
    rw [respell_cons, not_chosen_program hchosen]
    rfl

/-- The long options at any positions in front of a bare `--` may lose one of their
dashes. Those that are text get it back, and the others keep their single dash; so
where all of them are text, the command line asks for the same or is refused for the
same reason, under the same name of the program. -/
theorem parse_respelled {args : List Bytes} {chosen : Nat → Bool}
    (hchosen : ∀ i, chosen i = true → ∃ o, LongAt args i o) :
    normalize (respell chosen args) = respell (fun i => chosen i && isBrokenAt args i) (normalize args) ∧
    programName (normalize (respell chosen args)) = programName (normalize args) ∧
    ((∀ i o, chosen i = true → LongAt args i o → o.IsText) →
      parse (normalize (respell chosen args)) = parse (normalize args)) := by
  refine ⟨normalize_respell hchosen, programName_respell hchosen, fun htext => ?_⟩
  rw [normalize_respell hchosen, respell_none]
  intro i
  cases hi : chosen i with
  | false => rfl
  | true =>
    obtain ⟨o, ho⟩ := hchosen i hi
    exact (isBrokenAt_iff ho).2 (htext i o hi ho)

/-- Three options, the first with a value that looks like more of them. -/
def threeOptions : List Bytes :=
  ["agnx", "--config=\u00e4=-port", "--port", "80", "--version", "--", "--help"].map Text.Utf8.ofString

theorem parse_respelled_threeOptions :
    (∀ i, [1, 2, 4].contains i = true → ∃ o, LongAt threeOptions i o) ∧
      parse (normalize (["agnx", "-config=\u00e4=-port", "-port", "80", "-version", "--", "--help"].map
        Text.Utf8.ofString)) = parse (normalize threeOptions) := by
  have hplaces : ∀ i, [1, 2, 4].contains i = true → i = 1 ∨ i = 2 ∨ i = 4 := by
    intro i hi
    simpa using hi
  have hchosen : ∀ i, [1, 2, 4].contains i = true → ∃ o, LongAt threeOptions i o := by
    intro i hi
    rcases hplaces i hi with rfl | rfl | rfl
    · exact ⟨⟨.config, some (Text.Utf8.ofString "\u00e4=-port")⟩, by decide, by decide +kernel, by decide +kernel⟩
    · exact ⟨⟨.port, none⟩, by decide, by decide +kernel, by decide +kernel⟩
    · exact ⟨⟨.version, none⟩, by decide, by decide +kernel, by decide +kernel⟩
  refine ⟨hchosen, ?_⟩
  have htext : ∀ i o, [1, 2, 4].contains i = true → LongAt threeOptions i o → o.IsText := by
    intro i o hi ho
    rcases hplaces i hi with rfl | rfl | rfl <;> exact (isBrokenAt_iff ho).1 (by decide +kernel)
  have hsame := (parse_respelled hchosen).2.2 htext
  exact hsame

/-- A value that is no text is lost behind one dash: the path then starts inside the
name of the option. -/
theorem respelled_broken_value :
    ¬ ∀ (args : List Bytes) (chosen : Nat → Bool), (∀ i, chosen i = true → ∃ o, LongAt args i o) →
      parse (normalize (respell chosen args)) = parse (normalize args) := by
  intro h
  have hchosen : ∀ i, [1].contains i = true →
      ∃ o, LongAt [Text.Utf8.ofString "agnx", Text.Utf8.ofString "--config=" ++ [0xFF]] i o := by
    intro i hi
    obtain rfl : i = 1 := by simpa using hi
    exact ⟨⟨.config, some [0xFF]⟩, by decide, by decide +kernel, by decide +kernel⟩
  have hsame := congrArg Except.toOption (h _ _ hchosen)
  have hdouble : (parse (normalize [Text.Utf8.ofString "agnx", Text.Utf8.ofString "--config=" ++ [0xFF]])).toOption =
      some ⟨some ⟨[0xFF]⟩, none, false⟩ := by decide +kernel
  have hsingle : (parse (normalize (respell [1].contains
      [Text.Utf8.ofString "agnx", Text.Utf8.ofString "--config=" ++ [0xFF]]))).toOption =
      some ⟨some ⟨Text.Utf8.ofString "onfig=" ++ [0xFF]⟩, none, false⟩ := by decide +kernel
  rw [hdouble, hsingle] at hsame
  exact absurd hsame (by decide +kernel)

end AgentHost.CommandLine
