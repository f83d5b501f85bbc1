import AgentHost.Proofs.CommandLine.Normal
import Mathlib.Data.List.Forall2
/-!
# Options and their spellings

An option that is asked for can be spelled in several ways: by its letter or by its
name, behind one dash or two, with its value in the same argument or in the next one.
Whichever it is, in normal form its arguments take that option with that value
(`Item.Spells.takes`).
-/

namespace AgentHost.CommandLine

open Text (Bytes)
open Text.Utf8 (ofString decode?_encode)

/-! ## Spellings -/

/-- An option that is asked for, with its value. -/
inductive Item where
  | config (path : String)
  | port (number : String)
  | version
  deriving DecidableEq

namespace Item

/-- The option of an item. -/
def flag : Item → Flag
  | .config _ => .config
  | .port _ => .port
  | .version => .version

/-- The bytes of its value. -/
def value : Item → Option Bytes
  | .config path => some (ofString path)
  | .port number => some (ofString number)
  | .version => none

/-- The ways to spell an item. A value in an argument of its own does not start with a
dash, and one behind the letter of the port starts with a digit or a plus. -/
inductive Spells : Item → List String → Prop
  | pathNext {front path : String} (hfront : front ∈ ["-c", "--config", "-config"]) (hpath : path ≠ "")
    (hdash : path.toList.head? ≠ some '-') : Spells (.config path) [front, path]
  | pathJoined {front path : String} (hfront : front ∈ ["--config=", "-config="]) (hpath : path ≠ "") :
    Spells (.config path) [front ++ path]
  | portNext {front number : String} (hfront : front ∈ ["-p", "--port", "-port"])
    (hdash : number.toList.head? ≠ some '-') : Spells (.port number) [front, number]
  | portJoined {front number : String} (hfront : front ∈ ["--port=", "-port="]) :
    Spells (.port number) [front ++ number]
  | portAttached {number : String} {c : Char} (hfirst : number.toList.head? = some c)
    (hstart : c.isDigit = true ∨ c = '+') : Spells (.port number) ["-p" ++ number]
  | version {front : String} (hfront : front ∈ ["-V", "--version", "-version"]) : Spells .version [front]

end Item

/-! ## Arguments that take an option -/

namespace Reading

/-- The arguments take an option: at once, or it waits for its value in the next one. -/
inductive Takes (flag : Flag) : Option Bytes → List Bytes → Prop
  | once {value : Option Bytes} {arg : Bytes} (hescape : arg ≠ escape)
    (hread : ∀ r : Reading, r.argument arg = r.settleAndTake flag value) : Takes flag value [arg]
  | twice {front arg : Bytes} (hfrontescape : front ≠ escape) (hread : ∀ r : Reading, r.argument front = r.await flag)
    (hescape : arg ≠ escape) (hgiven : ∀ r : Reading, r.argument arg = r.give arg) : Takes flag (some arg) [front, arg]

theorem takeWhile_body (o : Spelled) : o.body.takeWhile (· ≠ equals) = ofString o.flag.long := by
  have hname : ∀ b ∈ ofString o.flag.long, decide (b ≠ equals) = true := by
    cases o.flag <;> decide +kernel
  rw [Spelled.body, List.takeWhile_append_of_pos hname]
  cases o.value <;> simp

theorem dropWhile_body (o : Spelled) :
    o.body.dropWhile (· ≠ equals) = match o.value with
      | some value => equals :: value
      | none => [] := by
  have hname : ∀ b ∈ ofString o.flag.long, decide (b ≠ equals) = true := by
    cases o.flag <;> decide +kernel
  rw [Spelled.body, List.dropWhile_append_of_pos hname]
  cases o.value <;> simp

theorem ofLong?_name (flag : Flag) : (Text.Utf8.decode? (ofString flag.long)).bind Flag.ofLong? = some flag := by
  rw [ofString, decode?_encode, Option.bind_some, Spelled.ofLong?_long]

/-- A long option is taken with what stands behind its equals sign. -/
theorem argument_double {o : Spelled} (h : o.value.isSome = o.flag.takesValue) (r : Reading) :
    r.argument o.double = r.settleAndTake o.flag o.value := by
  have hargument : r.argument o.double = r.long o.body := by simp [argument, Spelled.double]
  obtain ⟨flag, value⟩ := o
  rw [hargument, long]
  simp only [takeWhile_body, dropWhile_body, ofLong?_name]
  cases value with
  | none => simp only [← show _ = flag.takesValue from h, Option.isSome_none]
  | some value => simp only [← show _ = flag.takesValue from h, Option.isSome_some]

/-- A long option without a value that takes one waits for it. -/
theorem argument_name {flag : Flag} (h : flag.takesValue = true) (r : Reading) :
    r.argument (Spelled.double ⟨flag, none⟩) = r.await flag := by
  have hargument : r.argument (Spelled.double ⟨flag, none⟩) = r.long (Spelled.body ⟨flag, none⟩) := by
    simp [argument, Spelled.double]
  rw [hargument, long]
  simp only [takeWhile_body, dropWhile_body, ofLong?_name, h]

/-- The letter of an option that takes a value waits for it. -/
theorem argument_letter {flag : Flag} (h : flag.takesValue = true) (r : Reading) :
    r.argument (ofString (String.ofList ['-', flag.short])) = r.await flag := by
  cases flag with
  | config => rfl
  | port => rfl
  | version => cases h
  | help => cases h

theorem argument_version (r : Reading) : r.argument (ofString "-V") = r.settleAndTake .version none := by
  have hshort : r.argument (ofString "-V") = r.short 1 [0x56] := rfl
  have hfirst : Text.Utf8.first 0x56 [] = (.char 'V', []) := rfl
  have hflag : Flag.ofShort? 'V' = some .version := rfl
  simp only [hshort, short, hfirst, hflag, Flag.takesValue]
  cases r.settleAndTake .version none <;> rfl

/-- The letter of the port is followed by its value, if that does not start with an equals sign. -/
theorem argument_attached {b : UInt8} (hfirst : b ≠ equals) (more : Bytes) (r : Reading) :
    r.argument (dash :: 0x70 :: b :: more) = r.settleAndTake .port (some (b :: more)) := by
  have hshort : r.argument (dash :: 0x70 :: b :: more) =
      r.settleAndTake .port (some (if b = equals then more else b :: more)) := rfl
  rw [hshort, if_neg hfirst]

theorem argument_value {arg : Bytes} (h : arg.head? ≠ some dash) (r : Reading) : r.argument arg = r.give arg := by
  unfold argument
  split
  case h_1 a b body =>
    have hnot : a ≠ dash := fun hdash => h (congrArg some hdash)
    rw [if_neg hnot]
  case h_2 => rfl

theorem Takes.ne_escape {flag : Flag} {value : Option Bytes} {args : List Bytes} (h : Takes flag value args) :
    ∀ arg ∈ args, arg ≠ escape := by
  cases h with
  | once hescape => simpa using hescape
  | twice hfront _ hescape => simpa using ⟨hfront, hescape⟩

theorem ne_escape_of_takes {items : List Item} {words : List (List Bytes)}
    (h : List.Forall₂ (fun item args => Takes item.flag item.value args) items words) :
    ∀ args ∈ words, ∀ arg ∈ args, arg ≠ escape :=
  ((List.forall₂_and_left _ _).1 (h.flip.imp fun _ _ htakes => ⟨htakes.ne_escape, htakes⟩)).1

end Reading

/-! ## Spellings take their option -/

/-- Only a text that starts with an ASCII character starts with its byte. -/
theorem head?_ofString {text : String} {b : UInt8} (hascii : b < 0x80)
    (h : text.toList.head? ≠ some (Char.ofNat b.toNat)) : (ofString text).head? ≠ some b := by
  unfold ofString
  cases htext : text.toList with
  | nil => simp [Text.Utf8.encode]
  | cons c cs =>
    obtain ⟨first, bs, hbytes, hfirst⟩ := Text.Utf8.first_encodeChar c []
    rw [Text.Utf8.encode, List.flatMap_cons, hbytes]
    intro hbyte
    obtain rfl : first = b := by simpa using hbyte
    rw [Text.Utf8.first, if_pos hascii] at hfirst
    have hchar : Char.ofNat first.toNat = c := Text.Utf8.Piece.char.inj (Prod.mk.inj hfirst).1
    exact h (by rw [htext, hchar]; rfl)

theorem ofString_ne_nil {text : String} (h : text ≠ "") : ofString text ≠ [] := by
  intro hnil
  cases htext : text.toList with
  | nil => exact h (String.toList_eq_nil_iff.1 htext)
  | cons c cs =>
    obtain ⟨b, bs, hbytes, -⟩ := Text.Utf8.first_encodeChar c []
    rw [ofString, htext, Text.Utf8.encode, List.flatMap_cons, hbytes] at hnil
    cases hnil

theorem head?_value {text : String} (h : text.toList.head? ≠ some '-') : (ofString text).head? ≠ some dash :=
  head?_ofString (by decide) h

theorem not_isSingleDash {text : String} (h : text.toList.head? ≠ some '-') : ¬ IsSingleDash text := by
  rintro ⟨name, -, rfl | ⟨value, rfl⟩⟩ <;> simp at h

theorem normalizeOne_value {text : String} (h : text.toList.head? ≠ some '-') :
    normalizeOne (ofString text) = ofString text :=
  (normalizeOne_ofString text).2 (not_isSingleDash h)

theorem ne_escape_of_head? {arg : Bytes} (h : arg.head? ≠ some dash) : arg ≠ escape := by
  rintro rfl
  exact h rfl

theorem ofString_append (front back : String) : ofString (front ++ back) = ofString front ++ ofString back := by
  simp [ofString, Text.Utf8.encode]

theorem takes_joined {flag : Flag} (htakes : flag.takesValue = true) (value : Bytes) :
    Reading.Takes flag (some value) [Spelled.double ⟨flag, some value⟩] :=
  .once (double_ne_escape _) (Reading.argument_double htakes.symm)

theorem takes_next {flag : Flag} (htakes : flag.takesValue = true) {front : String} {value : Bytes}
    (hfront : normalizeOne (ofString front) = Spelled.double ⟨flag, none⟩ ∨
      normalizeOne (ofString front) = ofString (String.ofList ['-', flag.short]))
    (hdash : value.head? ≠ some dash) : Reading.Takes flag (some value) [normalizeOne (ofString front), value] := by
  rcases hfront with hfront | hfront
  · rw [hfront]
    exact .twice (double_ne_escape _) (Reading.argument_name htakes) (ne_escape_of_head? hdash)
      (Reading.argument_value hdash)
  · have hescape : ofString (String.ofList ['-', flag.short]) ≠ escape := by
      cases flag <;> decide +kernel
    rw [hfront]
    exact .twice hescape (Reading.argument_letter htakes) (ne_escape_of_head? hdash) (Reading.argument_value hdash)

/-- Both spellings with an equals sign are the one with two dashes when they are normal. -/
theorem normalizeOne_joined (flag : Flag) {front : String} (hfront : front ∈ ["--" ++ flag.long ++ "=", "-" ++ flag.long ++ "="])
    (value : String) : normalizeOne (ofString (front ++ value)) = Spelled.double ⟨flag, some (ofString value)⟩ := by
  have hdouble : ofString ("--" ++ flag.long ++ "=" ++ value) = Spelled.double ⟨flag, some (ofString value)⟩ := by
    simp only [ofString_append, List.append_assoc]
    rfl
  simp only [List.mem_cons, List.not_mem_nil, or_false] at hfront
  rcases hfront with rfl | rfl
  · rw [hdouble, normalizeOne_double]
  · have hsingle : IsSingleDash ("-" ++ flag.long ++ "=" ++ value) :=
      ⟨flag.long, mem_names_iff.2 ⟨flag, rfl⟩, .inr ⟨value, rfl⟩⟩
    have htext : "-" ++ ("-" ++ flag.long ++ "=" ++ value) = "--" ++ flag.long ++ "=" ++ value := by
      simp [← String.toList_inj]
    rw [(normalizeOne_ofString _).1 hsingle, htext, hdouble]

/-- The letter of the port with a numeral behind it is no long option. -/
theorem normalizeOne_attached {number : String} {c : Char} (hfirst : number.toList.head? = some c)
    (hstart : c.isDigit = true ∨ c = '+') : normalizeOne (ofString ("-p" ++ number)) = ofString ("-p" ++ number) := by
  obtain ⟨more, hmore⟩ := List.head?_eq_some_iff.1 hfirst
  have hequals : c ≠ '=' := by
    rintro rfl
    revert hstart
    decide
  have hletter : c ≠ 'o' := by
    rintro rfl
    revert hstart
    decide
  refine (normalizeOne_ofString _).2 ?_
  rw [← isSingleDashLong_iff]
  intro hlong
  have htext : ("-p" ++ number).toList = '-' :: 'p' :: c :: more := by simp [hmore]
  rw [htext, isSingleDashLong] at hlong
  -- Of the names only `port` starts with the letter, and its next one starts no numeral.
  obtain ⟨flag, hflag⟩ := Option.isSome_iff_exists.1 hlong
  have hname := ofLong?_eq_some hflag
  simp only [List.takeWhile_cons, hequals, ne_eq, not_false_eq_true, decide_true, if_true] at hname
  cases flag with
  | port => simp [Flag.long, hletter.symm] at hname
  | config => simp [Flag.long] at hname
  | version => simp [Flag.long] at hname
  | help => simp [Flag.long] at hname

theorem takes_attached {number : String} {c : Char} (hfirst : number.toList.head? = some c)
    (hstart : c.isDigit = true ∨ c = '+') :
    Reading.Takes .port (some (ofString number)) [ofString ("-p" ++ number)] := by
  have htext : number ≠ "" := by
    rintro rfl
    cases hfirst
  have hequals : (ofString number).head? ≠ some equals := by
    refine head?_ofString (by decide) ?_
    rw [hfirst]
    rintro hchar
    obtain rfl := Option.some.inj hchar
    revert hstart
    decide
  have harg : ofString ("-p" ++ number) = dash :: 0x70 :: ofString number := by
    rw [ofString_append]
    rfl
  rw [harg]
  cases hnumber : ofString number with
  | nil => exact absurd hnumber (ofString_ne_nil htext)
  | cons b bs =>
    have hnot : b ≠ equals := fun h => hequals (by rw [hnumber, h]; rfl)
    exact .once (by simp [escape]) (Reading.argument_attached hnot bs)

/-- An item is taken with its value, whichever way it is spelled. -/
theorem Item.Spells.takes {item : Item} {words : List String} (h : item.Spells words) :
    Reading.Takes item.flag item.value ((words.map ofString).map normalizeOne) := by
  cases h with
  | @pathNext front path hfront hpath hdash =>
    have hnormal : normalizeOne (ofString front) = Spelled.double ⟨.config, none⟩ ∨
        normalizeOne (ofString front) = ofString (String.ofList ['-', Flag.config.short]) := by
      simp only [List.mem_cons, List.not_mem_nil, or_false] at hfront
      rcases hfront with rfl | rfl | rfl <;> decide +kernel
    simp only [List.map_cons, List.map_nil, normalizeOne_value hdash]
    exact takes_next rfl hnormal (head?_value hdash)
  | @pathJoined front path hfront hpath =>
    simp only [List.map_cons, List.map_nil]
    rw [normalizeOne_joined .config hfront]
    exact takes_joined rfl _
  | @portNext front number hfront hdash =>
    have hnormal : normalizeOne (ofString front) = Spelled.double ⟨.port, none⟩ ∨
        normalizeOne (ofString front) = ofString (String.ofList ['-', Flag.port.short]) := by
      simp only [List.mem_cons, List.not_mem_nil, or_false] at hfront
      rcases hfront with rfl | rfl | rfl <;> decide +kernel
    simp only [List.map_cons, List.map_nil, normalizeOne_value hdash]
    exact takes_next rfl hnormal (head?_value hdash)
  | @portJoined front number hfront =>
    simp only [List.map_cons, List.map_nil]
    rw [normalizeOne_joined .port hfront]
    exact takes_joined rfl _
  | @portAttached number c hfirst hstart =>
    simp only [List.map_cons, List.map_nil]
    rw [normalizeOne_attached hfirst hstart]
    exact takes_attached hfirst hstart
  | @version front hfront =>
    have hnormal : normalizeOne (ofString front) = Spelled.double ⟨.version, none⟩ ∨
        normalizeOne (ofString front) = ofString "-V" := by
      simp only [List.mem_cons, List.not_mem_nil, or_false] at hfront
      rcases hfront with rfl | rfl | rfl <;> decide +kernel
    simp only [List.map_cons, List.map_nil]
    rcases hnormal with hnormal | hnormal
    · rw [hnormal]
      exact .once (double_ne_escape _) (Reading.argument_double rfl)
    · rw [hnormal]
      exact .once (by decide +kernel) Reading.argument_version

end AgentHost.CommandLine
