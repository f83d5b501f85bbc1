import AgentHost.Proofs.CommandLine.Spelling
/-!
# What normalizing changes

Normalizing looks at one argument at a time, so that what it makes of a list is said
position by position (`getElem?_normalize`). A position is kept that is the first,
or at or behind a bare `--` that is not; and of the others those are changed that
hold a long option behind a single dash.
-/

namespace AgentHost.CommandLine

open Text (Bytes)
open Text.Utf8 (ofString decode?_encode)

/-! ## One argument -/

/-- The text is a name behind a single dash, and then nothing or an equals sign with
any text. -/
def IsSingleDash (text : String) : Prop :=
  ∃ name ∈ ["config", "port", "version", "help"], text = "-" ++ name ∨ ∃ value, text = "-" ++ name ++ "=" ++ value

theorem mem_names_iff {name : String} : name ∈ ["config", "port", "version", "help"] ↔ ∃ flag : Flag, flag.long = name := by
  constructor
  · intro h
    simp only [List.mem_cons, List.not_mem_nil, or_false] at h
    rcases h with rfl | rfl | rfl | rfl
    · exact ⟨.config, rfl⟩
    · exact ⟨.port, rfl⟩
    · exact ⟨.version, rfl⟩
    · exact ⟨.help, rfl⟩
  · rintro ⟨flag, rfl⟩
    cases flag <;> decide

theorem ofLong?_eq_some {name : List Char} {flag : Flag} (h : Flag.ofLong? name = some flag) : flag.long.toList = name :=
  eq_of_beq (List.find?_some (p := fun f : Flag => f.long.toList == name) h)

theorem takeWhile_long (flag : Flag) : flag.long.toList.takeWhile (· ≠ '=') = flag.long.toList := by
  rw [List.takeWhile_eq_self_iff]
  intro c hc
  simpa using (Spelled.name_plain flag c hc).1

/-- Characters are those in front of the first equals sign, and then nothing or that sign and more. -/
theorem split_equals (cs : List Char) :
    cs = cs.takeWhile (· ≠ '=') ∨ ∃ value, cs = cs.takeWhile (· ≠ '=') ++ '=' :: value := by
  have hsplit := (List.takeWhile_append_dropWhile (p := (· ≠ '=')) (l := cs)).symm
  cases hrest : cs.dropWhile (· ≠ '=') with
  | nil =>
    rw [hrest, List.append_nil] at hsplit
    exact .inl hsplit
  | cons c value =>
    have hequals : c = '=' := by
      have hhead := List.head?_dropWhile_not (· ≠ '=') cs
      rw [hrest] at hhead
      simpa using hhead
    rw [hrest, hequals] at hsplit
    exact .inr ⟨value, hsplit⟩

theorem isSingleDashLong_iff (text : String) : isSingleDashLong text.toList = true ↔ IsSingleDash text := by
  constructor
  · intro h
    unfold isSingleDashLong at h
    split at h
    case h_1 rest htext =>
      obtain ⟨flag, hflag⟩ := Option.isSome_iff_exists.1 h
      have hname := ofLong?_eq_some hflag
      refine ⟨flag.long, mem_names_iff.2 ⟨flag, rfl⟩, ?_⟩
      rcases split_equals rest with hrest | ⟨value, hrest⟩
      · left
        rw [← String.toList_inj, htext, hrest, ← hname]
        simp
      · right
        refine ⟨String.ofList value, ?_⟩
        rw [← String.toList_inj, htext, hrest, ← hname]
        simp
    case h_2 => cases h
  · rintro ⟨name, hname, htext⟩
    obtain ⟨flag, rfl⟩ := mem_names_iff.1 hname
    rcases htext with rfl | ⟨value, rfl⟩
    · have hchars : ("-" ++ flag.long).toList = '-' :: flag.long.toList := by simp
      rw [hchars, isSingleDashLong, takeWhile_long, Spelled.ofLong?_long]
      rfl
    · have hchars : ("-" ++ flag.long ++ "=" ++ value).toList = '-' :: (flag.long.toList ++ '=' :: value.toList) := by
        simp
      rw [hchars, isSingleDashLong, Spelled.takeWhile_name, Spelled.ofLong?_long]
      rfl

theorem ofString_dash (text : String) : ofString ("-" ++ text) = dash :: ofString text := by
  have hchars : ("-" ++ text).toList = '-' :: text.toList := by simp
  rw [ofString, hchars]
  rfl

theorem normalizeOne_ofString (text : String) :
    (IsSingleDash text → normalizeOne (ofString text) = ofString ("-" ++ text)) ∧
      (¬ IsSingleDash text → normalizeOne (ofString text) = ofString text) := by
  have hone : normalizeOne (ofString text) =
      if isSingleDashLong text.toList = true then dash :: ofString text else ofString text := by
    rw [normalizeOne, ofString, decode?_encode]
  rw [hone, ← isSingleDashLong_iff, ofString_dash]
  exact ⟨fun h => if_pos h, fun h => if_neg h⟩

/-- An argument is left as it is, or is one more dash in front of a text that is a
name behind a dash. -/
theorem normalizeOne_cases (arg : Bytes) :
    normalizeOne arg = arg ∨
      ∃ cs, Text.Utf8.decode? arg = some ('-' :: cs) ∧ cs ≠ [] ∧ normalizeOne arg = dash :: arg := by
  unfold normalizeOne
  split
  case h_1 cs htext =>
    split
    case isTrue hlong =>
      right
      unfold isSingleDashLong at hlong
      split at hlong
      case h_1 rest =>
        refine ⟨rest, htext, ?_, rfl⟩
        rintro rfl
        exact absurd hlong (by decide)
      case h_2 => cases hlong
    case isFalse => exact .inl rfl
  case h_2 => exact .inl rfl

theorem decode?_dash (arg : Bytes) : Text.Utf8.decode? (dash :: arg) = (Text.Utf8.decode? arg).map ('-' :: ·) :=
  Text.Utf8.decode?_ascii (by decide) arg

theorem normalizeOne_idem (arg : Bytes) : normalizeOne (normalizeOne arg) = normalizeOne arg := by
  rcases normalizeOne_cases arg with h | ⟨cs, htext, -, h⟩
  · rw [h, h]
  · rw [h, normalizeOne, decode?_dash, htext]
    show (if isSingleDashLong ('-' :: '-' :: cs) = true then _ else _) = _
    rw [Spelled.isSingleDashLong_double]
    rfl

theorem normalizeOne_eq_escape_iff (arg : Bytes) : normalizeOne arg = escape ↔ arg = escape := by
  rcases normalizeOne_cases arg with h | ⟨cs, htext, hmore, h⟩
  · rw [h]
  · -- Both are impossible: a bare `--` is two dashes, and the argument is a dash and a name.
    have hescape : Text.Utf8.decode? escape = some ['-', '-'] := by decide +kernel
    rw [h]
    constructor
    · intro hboth
      have hdecoded := decode?_dash arg
      rw [hboth, hescape, htext] at hdecoded
      simp at hdecoded
      exact absurd hdecoded hmore
    · rintro rfl
      exact absurd h (by decide +kernel)

/-! ## Lists of arguments -/

theorem length_normalizeOptions (opts : List Bytes) : (normalizeOptions opts).length = opts.length := by
  induction opts with
  | nil => rfl
  | cons arg rest ih =>
    rw [normalizeOptions]
    split
    · rfl
    · rw [List.length_cons, ih, List.length_cons]

theorem length_normalize (args : List Bytes) : (normalize args).length = args.length := by
  cases args with
  | nil => rfl
  | cons program opts => rw [normalize, List.length_cons, length_normalizeOptions, List.length_cons]

/-- The induction is on the options: each of them either ends what is changed or is
changed by itself. -/
theorem getElem?_normalizeOptions (opts : List Bytes) (i : Nat) :
    (normalizeOptions opts)[i]? = if escape ∈ opts.take (i + 1) then opts[i]? else opts[i]?.map normalizeOne := by
  induction opts generalizing i with
  | nil => simp [normalizeOptions]
  | cons arg rest ih =>
    by_cases hescape : arg = escape
    · rw [hescape, normalizeOptions_escape, if_pos (by simp)]
    · rw [normalizeOptions_cons hescape]
      cases i with
      | zero => simp [Ne.symm hescape]
      | succ i =>
        rw [List.getElem?_cons_succ, ih, List.getElem?_cons_succ, List.take_succ_cons]
        simp only [List.mem_cons, Ne.symm hescape, false_or]

/-- Nothing is changed at the position: it is the first, or a bare `--` behind the first
stands at it or before it. -/
def IsKept (args : List Bytes) (i : Nat) : Prop := i = 0 ∨ ∃ j, 1 ≤ j ∧ j ≤ i ∧ args[j]? = some escape

theorem isKept_succ_iff (program : Bytes) (opts : List Bytes) (i : Nat) :
    IsKept (program :: opts) (i + 1) ↔ escape ∈ opts.take (i + 1) := by
  rw [List.mem_take_iff_getElem]
  constructor
  · rintro (hzero | ⟨j, hpos, hle, hescape⟩)
    · cases hzero
    · obtain ⟨k, rfl⟩ := Nat.exists_eq_add_of_le' hpos
      rw [List.getElem?_cons_succ] at hescape
      obtain ⟨hlt, hescape⟩ := List.getElem?_eq_some_iff.1 hescape
      exact ⟨k, by omega, hescape⟩
  · rintro ⟨k, hlt, hescape⟩
    refine .inr ⟨k + 1, Nat.le_add_left 1 k, by omega, ?_⟩
    rw [List.getElem?_cons_succ, List.getElem?_eq_some_iff]
    exact ⟨by omega, hescape⟩

theorem getElem?_normalize (args : List Bytes) (i : Nat) :
    (IsKept args i → (normalize args)[i]? = args[i]?) ∧
      (¬ IsKept args i → (normalize args)[i]? = args[i]?.map normalizeOne) := by
  cases args with
  | nil => exact ⟨fun _ => rfl, fun _ => rfl⟩
  | cons program opts =>
    cases i with
    | zero => exact ⟨fun _ => rfl, fun h => absurd (.inl rfl) h⟩
    | succ i =>
      rw [isKept_succ_iff, normalize, List.getElem?_cons_succ, getElem?_normalizeOptions, List.getElem?_cons_succ]
      exact ⟨fun h => if_pos h, fun h => if_neg h⟩

theorem getElem?_normalize_eq_escape_iff (args : List Bytes) (i : Nat) :
    (normalize args)[i]? = some escape ↔ args[i]? = some escape := by
  by_cases hkept : IsKept args i
  · rw [(getElem?_normalize args i).1 hkept]
  · rw [(getElem?_normalize args i).2 hkept]
    simp only [Option.map_eq_some_iff, normalizeOne_eq_escape_iff, exists_eq_right]

theorem normalizeOptions_idem (opts : List Bytes) : normalizeOptions (normalizeOptions opts) = normalizeOptions opts := by
  induction opts with
  | nil => rfl
  | cons arg rest ih =>
    by_cases hescape : arg = escape
    · rw [hescape, normalizeOptions_escape, normalizeOptions_escape]
    · have hone : normalizeOne arg ≠ escape := fun h => hescape ((normalizeOne_eq_escape_iff arg).1 h)
      rw [normalizeOptions_cons hescape, normalizeOptions_cons hone, normalizeOne_idem, ih]

theorem normalize_idem (args : List Bytes) : normalize (normalize args) = normalize args := by
  cases args with
  | nil => rfl
  | cons program opts => rw [normalize, normalize, normalizeOptions_idem]

theorem normalizeOptions_map {opts : List Bytes} (h : escape ∉ opts) : normalizeOptions opts = opts.map normalizeOne := by
  induction opts with
  | nil => rfl
  | cons arg rest ih =>
    have harg : arg ≠ escape := fun hescape => h (hescape ▸ List.mem_cons_self)
    rw [normalizeOptions_cons harg, ih fun hrest => h (List.mem_cons_of_mem _ hrest), List.map_cons]

theorem normalizeOptions_append {front : List Bytes} (h : escape ∉ front) (rest : List Bytes) :
    normalizeOptions (front ++ rest) = normalizeOptions front ++ normalizeOptions rest := by
  induction front with
  | nil => rfl
  | cons arg front ih =>
    have harg : arg ≠ escape := fun hescape => h (hescape ▸ List.mem_cons_self)
    rw [List.cons_append, normalizeOptions_cons harg, normalizeOptions_cons harg,
      ih fun hfront => h (List.mem_cons_of_mem _ hfront), List.cons_append]

/-- In front of a bare `--` a list may be cut anywhere behind its first argument. -/
theorem normalize_append {front : List Bytes} (hfront : front ≠ []) (h : escape ∉ front.tail) (rest : List Bytes)
    (program : Bytes) : normalize (front ++ rest) = normalize front ++ (normalize (program :: rest)).tail := by
  cases front with
  | nil => exact absurd rfl hfront
  | cons first opts =>
    have hoptions : normalizeOptions (opts ++ rest) = _ := normalizeOptions_append h rest
    rw [List.cons_append, normalize, normalize, normalize, hoptions]
    rfl

/-- Exactly the names behind a single dash get another one, where they are options
and texts: not at the first position, nor at or behind a bare `--`. Nothing else is
changed, so normalizing twice is normalizing once, a bare `--` is neither made nor
lost, and a list may be normalized in parts. -/
theorem normalize_changes :
    (∀ texts : List String,
      let args := texts.map ofString
      (normalize args).length = texts.length ∧
      ∀ i text, texts[i]? = some text →
        (IsKept args i ∨ ¬ IsSingleDash text → (normalize args)[i]? = some (ofString text)) ∧
        (¬ IsKept args i ∧ IsSingleDash text → (normalize args)[i]? = some (ofString ("-" ++ text)))) ∧
    (∀ args : List Bytes, normalize (normalize args) = normalize args) ∧
    (∀ (args : List Bytes) (i : Nat), (normalize args)[i]? = some escape ↔ args[i]? = some escape) ∧
    (∀ (front rest : List Bytes) (program : Bytes), front ≠ [] → escape ∉ front.tail →
      normalize (front ++ rest) = normalize front ++ (normalize (program :: rest)).tail) := by
  refine ⟨fun texts => ?_, normalize_idem, getElem?_normalize_eq_escape_iff,
    fun front rest program hfront h => normalize_append hfront h rest program⟩
  intro args
  refine ⟨(length_normalize args).trans (List.length_map _), fun i text htext => ?_⟩
  have harg : args[i]? = some (ofString text) := by
    rw [List.getElem?_map, htext]
    rfl
  obtain ⟨hkept, hopen⟩ := getElem?_normalize args i
  obtain ⟨hsingle, hother⟩ := normalizeOne_ofString text
  rw [harg] at hkept hopen
  constructor
  · intro h
    by_cases hat : IsKept args i
    · exact hkept hat
    · have htext : ¬ IsSingleDash text := h.resolve_left hat
      rw [hopen hat, Option.map_some, hother htext]
  · rintro ⟨hat, htext⟩
    rw [hopen hat, Option.map_some, hsingle htext]

/-- A name as the program, one with a value that holds dashes, and one behind a bare `--`. -/
def mixedTexts : List String := ["-help", "-config=\u00e4=-port", "--", "-version"]

theorem normalize_changes_mixed :
    (normalize (mixedTexts.map ofString))[0]? = some (ofString "-help") ∧
      (normalize (mixedTexts.map ofString))[1]? = some (ofString "--config=\u00e4=-port") ∧
      (normalize (mixedTexts.map ofString))[3]? = some (ofString "-version") ∧
      normalize ([ofString "-port"] ++ [ofString "-port"]) = [ofString "-port", ofString "--port"] := by
  obtain ⟨htexts, -, -, happend⟩ := normalize_changes
  obtain ⟨-, hat⟩ := htexts mixedTexts
  have hopen : ¬ IsKept (mixedTexts.map ofString) 1 := by
    rintro (hzero | ⟨j, hpos, hle, hescape⟩)
    · cases hzero
    · obtain rfl := Nat.le_antisymm hle hpos
      exact absurd hescape (by decide +kernel)
  refine ⟨(hat 0 _ rfl).1 (.inl (.inl rfl)), (hat 1 _ rfl).2 ⟨hopen, "config", by decide, .inr ⟨"\u00e4=-port", rfl⟩⟩,
    (hat 3 _ rfl).1 (.inl (.inr ⟨2, by decide, by decide, by decide +kernel⟩)), ?_⟩
  exact (happend _ _ (ofString "agnx") (by simp) (by simp)).trans (by decide +kernel)

end AgentHost.CommandLine
