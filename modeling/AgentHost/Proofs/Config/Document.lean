import AgentHost.Proofs.Config.Parsing
import AgentHost.Proofs.Yaml.Blocks
/-!
# A configuration is read back from its document

`Config.document` writes all fields of a configuration down, texts and paths
between quotes, numbers in decimal and the format as its word. The document is
read as the configuration that it was written from (`Config.document_read_back`).
-/

namespace AgentHost

open Yaml Number

namespace Yaml

theorem isWordChar_of_isDigit {c : Char} (h : c.isDigit = true) : isWordChar c = true := by
  have halphanum : c.isAlphanum = true := Bool.or_eq_true_iff.2 (.inr h)
  rw [isWordChar, halphanum, Bool.true_or]

/-- A number in decimal. -/
def Word.decimal (n : Nat) : Word where
  text := Layout.digitChars (Shortest.digitsOf n)
  ne_nil := Layout.digitChars_ne_nil n
  chars := fun _ h => isWordChar_of_isDigit (Layout.isDigit_of_mem h)

theorem Scalar.denotes_decimal (n : Nat) : Scalar.Denotes (Word.decimal n).text n := by
  refine .bare (.decimal ((ofDigits?_iff (by decide)).1 (Numeral.ofDigits?_digitsOf n)) fun hhead => ?_)
  cases htext : (Word.decimal n).text with
  | nil => exact absurd htext (Word.decimal n).ne_nil
  | cons c more =>
    rw [htext] at hhead
    obtain rfl := Option.some.inj hhead
    rw [Layout.eq_nil_of_digitChars htext]

/-- The key of that name. -/
def Key.named (name : String)
    (h : name.toList ≠ [] ∧ (name.toList.all isWordChar && name.toList.length ≤ 1024) = true) : Key where
  text := name.toList
  ne_nil := h.1
  chars := List.all_eq_true.1 (Bool.and_eq_true_iff.1 h.2).1
  short := of_decide_eq_true (Bool.and_eq_true_iff.1 h.2).2

end Yaml

namespace Config

/-- The word for a format. -/
def formatKey : LogFormat → Key
  | .text => .named "text" (by decide)
  | .json => .named "json" (by decide)

/-- The entries of the server. -/
def serverEntries (capitals : Bool) (s : ServerSettings) : Entries :=
  .leaf (.named "host" (by decide)) (.quoted capitals s.host.toList) <|
  .leaf (.named "port" (by decide)) (.word (.decimal s.port.toNat)) <|
  .leaf (.named "read_timeout" (by decide)) (.word (.decimal s.readTimeout.toNat)) <|
  .leaf (.named "write_timeout" (by decide)) (.word (.decimal s.writeTimeout.toNat)) .nil

/-- The entries of logging. -/
def loggingEntries (capitals : Bool) (l : LogSettings) : Entries :=
  .leaf (.named "level" (by decide)) (.quoted capitals l.level.toList) <|
  .leaf (.named "format" (by decide)) (.word (formatKey l.format).toWord) .nil

/-- The entries of a configuration. `data` and `agents` are the texts of its paths. -/
def documentEntries (capitals : Bool) (c : Config) (data agents : List Char) : Entries :=
  .nest (.named "server" (by decide)) (serverEntries capitals c.server) <|
  .leaf (.named "data_dir" (by decide)) (.quoted capitals data) <|
  .leaf (.named "agents_dir" (by decide)) (.quoted capitals agents) <|
  .nest (.named "logging" (by decide)) (loggingEntries capitals c.logging) .nil

/-- The configuration as a document. `capitals` says how the digits of escapes are written. -/
def document (capitals : Bool) (c : Config) (data agents : List Char) : List Char :=
  (documentEntries capitals c data agents).text

/-! ## What the document holds -/

/-- One value stands at the path of every field, and it says what the field is. -/
structure Holds (t : Tree) (c : Config) : Prop where
  host : ∃ v, t.valuesAt ["server", "host"] = [v] ∧ IsText v c.server.host
  port : ∃ v, t.valuesAt ["server", "port"] = [v] ∧ IsPort v c.server.port
  readTimeout : ∃ v, t.valuesAt ["server", "read_timeout"] = [v] ∧ IsSeconds v c.server.readTimeout
  writeTimeout : ∃ v, t.valuesAt ["server", "write_timeout"] = [v] ∧ IsSeconds v c.server.writeTimeout
  dataDir : ∃ v, t.valuesAt ["data_dir"] = [v] ∧ IsPath v c.dataDir
  agentsDir : ∃ v, t.valuesAt ["agents_dir"] = [v] ∧ IsPath v c.agentsDir
  level : ∃ v, t.valuesAt ["logging", "level"] = [v] ∧ IsText v c.logging.level
  format : ∃ v, t.valuesAt ["logging", "format"] = [v] ∧ IsFormat v c.logging.format

variable {capitals : Bool} {c : Config} {data agents : List Char}

/-- Sections that hold the values of a configuration have the shape of one. -/
theorem Holds.isShape {t : Tree} (h : Holds t c) (hroot : t.IsSection rootNames)
    (hsections : ∀ p ∈ sections, ∀ s ∈ t.valuesOf p.1, s.IsSection p.2) : IsShape t := by
  have hone : ∀ {path : List String} {Q : Tree → Prop}, (∃ v, t.valuesAt path = [v] ∧ Q v) →
      ∀ v ∈ t.valuesAt path, Q v := by
    rintro path Q ⟨v, hvalues, hv⟩ w hw
    rw [hvalues, List.mem_singleton] at hw
    rwa [hw]
  constructor
  case root => exact hroot
  case sections => exact hsections
  case texts =>
    simp only [List.forall_mem_cons, List.not_mem_nil, false_implies, implies_true, and_true]
    exact ⟨fun v hv => ⟨_, hone h.host v hv⟩, fun v hv => (hone h.dataDir v hv).imp fun _ h => h.1,
      fun v hv => (hone h.agentsDir v hv).imp fun _ h => h.1, fun v hv => ⟨_, hone h.level v hv⟩⟩
  case port => exact fun v hv => ⟨_, hone h.port v hv, Nat.le_of_lt_succ c.server.port.toNat_lt⟩
  case timeouts =>
    simp only [List.forall_mem_cons, List.not_mem_nil, false_implies, implies_true, and_true]
    exact ⟨fun v hv => ⟨_, hone h.readTimeout v hv, Nat.le_of_lt_succ c.server.readTimeout.toNat_lt⟩,
      fun v hv => ⟨_, hone h.writeTimeout v hv, Nat.le_of_lt_succ c.server.writeTimeout.toNat_lt⟩⟩
  case format =>
    intro v hv
    rcases hone h.format v hv with ⟨-, htext⟩ | ⟨-, htext⟩
    · exact .inl htext
    · exact .inr htext

/-- What a tree gives is what it holds. -/
theorem Holds.eq {t : Tree} {f : Config} (h : Holds t c) (hf : ConfigGives t f) : f = c := by
  have hone : ∀ {α : Type} {path : List String} {P : Tree → α → Prop} {unset x y : α}, t.Gives path P unset x →
      (∀ v x y, P v x → P v y → x = y) → (∃ v, t.valuesAt path = [v] ∧ P v y) → x = y := by
    rintro α path P unset x y hgives hunique ⟨v, hvalues, hv⟩
    exact hunique v x y (hgives.present v (hvalues ▸ List.mem_cons_self)) hv
  have hhost := hone hf.host isText_unique h.host
  have hport := hone hf.port isPort_unique h.port
  have hreadtimeout := hone hf.readTimeout isSeconds_unique h.readTimeout
  have hwritetimeout := hone hf.writeTimeout isSeconds_unique h.writeTimeout
  have hdatadir := hone hf.dataDir isPath_unique h.dataDir
  have hagentsdir := hone hf.agentsDir isPath_unique h.agentsDir
  have hlevel := hone hf.level isText_unique h.level
  have hformat := hone hf.format isFormat_unique h.format
  obtain ⟨⟨_, _, _, _⟩, _, _, ⟨_, _⟩⟩ := c
  obtain ⟨⟨_, _, _, _⟩, _, _, ⟨_, _⟩⟩ := f
  simp only at hhost hport hreadtimeout hwritetimeout hdatadir hagentsdir hlevel hformat
  subst hhost hport hreadtimeout hwritetimeout hdatadir hagentsdir hlevel hformat
  rfl

theorem denotes_decimal (n : Nat) : Tree.Denotes (.scalar (Word.decimal n).text .plain) n :=
  ⟨_, rfl, Scalar.denotes_decimal n⟩

theorem holds_document (hdata : c.dataDir.bytes = Text.Utf8.encode data)
    (hagents : c.agentsDir.bytes = Text.Utf8.encode agents) :
    Holds (documentEntries capitals c data agents).tree c where
  host := ⟨_, rfl, rfl⟩
  port := ⟨_, rfl, denotes_decimal _⟩
  readTimeout := ⟨_, rfl, denotes_decimal _⟩
  writeTimeout := ⟨_, rfl, denotes_decimal _⟩
  dataDir := ⟨_, rfl, data, rfl, hdata⟩
  agentsDir := ⟨_, rfl, agents, rfl, hagents⟩
  level := ⟨_, rfl, rfl⟩
  format := by
    refine ⟨_, rfl, isFormat_iff.2 ?_⟩
    cases c.logging.format <;> rfl

theorem isSection_root : (documentEntries capitals c data agents).tree.IsSection rootNames :=
  Entries.isSection_tree rfl

theorem isSection_server (s : ServerSettings) : (serverEntries capitals s).tree.IsSection serverNames :=
  Entries.isSection_tree rfl

theorem isSection_logging (l : LogSettings) : (loggingEntries capitals l).tree.IsSection loggingNames :=
  Entries.isSection_tree rfl

theorem isShape_document (hdata : c.dataDir.bytes = Text.Utf8.encode data)
    (hagents : c.agentsDir.bytes = Text.Utf8.encode agents) :
    IsShape (documentEntries capitals c data agents).tree := by
  have hserver : (documentEntries capitals c data agents).tree.valuesOf "server" =
      [(serverEntries capitals c.server).tree] := rfl
  have hlogging : (documentEntries capitals c data agents).tree.valuesOf "logging" =
      [(loggingEntries capitals c.logging).tree] := rfl
  apply (holds_document hdata hagents).isShape isSection_root
  simp only [sections, List.forall_mem_cons, List.not_mem_nil, false_implies, implies_true, and_true, hserver, hlogging]
  exact ⟨isSection_server c.server, isSection_logging c.logging⟩

/-! ## Reading it back -/

/-- A configuration whose paths are texts is read back from its document, before
and after there are defaults. -/
theorem document_read_back (capitals : Bool) (c : Config) {data agents : List Char}
    (hdata : c.dataDir.bytes = Text.Utf8.encode data) (hagents : c.agentsDir.bytes = Text.Utf8.encode agents) :
    ofText (document capitals c data agents) = .ok c ∧
      parse (document capitals c data agents) = .ok c.withDefaults := by
  obtain ⟨root, hdocument, htree⟩ := Document.ofText_entries (documentEntries capitals c data agents)
  obtain ⟨f, hf⟩ := (ofNode_isOk_iff htree).2 (isShape_document hdata hagents)
  obtain rfl : f = c := (holds_document hdata hagents).eq (ofNode_gives htree hf)
  have hread : ofText (document capitals f data agents) = .ok f := by
    rw [ofText, document, hdocument]
    simp only [ofDocument, hf, Bool.false_eq_true, if_false]
  refine ⟨hread, ?_⟩
  rw [parse, hread]
  rfl

/-- Quotes, a backslash, characters that are escaped, the widest numbers and what is unset. -/
def motley : Config :=
  ⟨⟨"\"\\ \u00e9\n", 65535, 18446744073709551615, 0⟩, .ofString "/srv/d\u00e4t", .ofString "", ⟨"", .json⟩⟩

theorem document_read_back_motley :
    motley.dataDir.bytes = Text.Utf8.encode "/srv/d\u00e4t".toList ∧
      motley.agentsDir.bytes = Text.Utf8.encode "".toList ∧
      document false motley "/srv/d\u00e4t".toList "".toList =
        ("server:\n  host: \"\\\"\\\\ \\U000000e9\\U0000000a\"\n  port: 65535\n" ++
          "  read_timeout: 18446744073709551615\n  write_timeout: 0\ndata_dir: \"/srv/d\\U000000e4t\"\n" ++
          "agents_dir: \"\"\nlogging:\n  level: \"\"\n  format: json\n").toList ∧
      ofText (document false motley "/srv/d\u00e4t".toList "".toList) = .ok motley ∧
      parse (document false motley "/srv/d\u00e4t".toList "".toList) = .ok motley.withDefaults :=
  ⟨rfl, rfl, by decide +kernel, document_read_back false motley rfl rfl⟩

end Config

end AgentHost
