import AgentHost.Proofs.Config.Defaults
import AgentHost.Proofs.Config.Shape
/-!
# Which texts are configurations

The fields of each section accept the values of their kind and set one part of the
section each. With what is known of sections in general, a bare document is read
exactly when it has the shape of a configuration, and as what it describes
(`parse_iff_shape`).
-/

namespace AgentHost

open Yaml

namespace Yaml.Tree

variable {α : Type} {t : Tree} {path : List String} {P : Tree → α → Prop} {unset default x : α}

/-- `x` is what the value at the path says, and unset where there is none. -/
structure Gives (t : Tree) (path : List String) (P : Tree → α → Prop) (unset x : α) : Prop where
  present : ∀ v ∈ t.valuesAt path, P v x
  missing : t.valuesAt path = [] → x = unset

theorem gives_here (h : P t x) : t.Gives [] P unset x where
  present := by
    intro v hv
    rwa [List.mem_singleton.1 hv]
  missing := fun h => nomatch h

theorem gives_behind {name : String} (hsay : ∀ s ∈ t.valuesOf name, s.Gives path P unset x)
    (hmissing : t.valuesOf name = [] → x = unset) : t.Gives (name :: path) P unset x where
  present := by
    intro v hv
    obtain ⟨s, hs, hv⟩ := mem_valuesAt_cons.1 hv
    exact (hsay s hs).present v hv
  missing := by
    intro hnil
    cases hvalues : t.valuesOf name with
    | nil => exact hmissing hvalues
    | cons s rest =>
      rw [valuesAt, hvalues, List.flatMap_cons, List.append_eq_nil_iff] at hnil
      exact (hsay s (hvalues ▸ List.mem_cons_self)).missing hnil.1

/-- With the default in the place of what is unset the path is settled. -/
theorem Gives.settles [DecidableEq α] (h : t.Gives path P unset x) :
    t.Settles path P unset default (if x = unset then default else x) := by
  by_cases hx : x = unset
  · rw [if_pos hx]
    exact .inr ⟨hx ▸ h.present, rfl⟩
  · rw [if_neg hx]
    cases hvalues : t.valuesAt path with
    | nil => exact absurd (h.missing hvalues) hx
    | cons v rest =>
      have hv : v ∈ t.valuesAt path := hvalues ▸ List.mem_cons_self
      exact .inl ⟨v, hv, h.present v hv, hx⟩

end Yaml.Tree

namespace Config

variable {root n : Node} {t : Tree} {trail : Trail}

theorem isOk_bind_ok {ε α β : Type} {x : Except ε α} {f : α → β} :
    (∃ b, (x >>= fun a => .ok (f a)) = .ok b) ↔ ∃ a, x = .ok a := by
  constructor
  · rintro ⟨b, h⟩
    obtain ⟨a, ha, -⟩ := ok_of_bind h
    exact ⟨a, ha⟩
  · rintro ⟨a, rfl⟩
    exact ⟨f a, rfl⟩

/-! ## The server -/

/-- What the fields of the server accept. -/
def serverAccepts : String → Tree → Prop
  | "host" => Tree.IsScalar
  | "port" => Tree.IsNumber 65535
  | "read_timeout" => Tree.IsNumber 18446744073709551615
  | "write_timeout" => Tree.IsNumber 18446744073709551615
  | _ => fun _ => True

theorem serverFields_reads (root : Node) :
    Reads (serverFields root) serverNames serverAccepts where
  names := rfl
  accepts := by
    intro f hf trail n t s htree
    simp only [serverFields, List.mem_cons, List.not_mem_nil, or_false] at hf
    rcases hf with rfl | rfl | rfl | rfl
    · simp only [isOk_bind_ok, readText_iff htree]
      rfl
    · simp only [isOk_bind_ok, readNat_iff htree]
      rfl
    · simp only [isOk_bind_ok, readNat_iff htree]
      rfl
    · simp only [isOk_bind_ok, readNat_iff htree]
      rfl

/-- What the tree of a server says of its settings. -/
structure ServerGives (t : Tree) (s : ServerSettings) : Prop where
  host : t.Gives ["host"] IsText "" s.host
  port : t.Gives ["port"] IsPort 0 s.port
  readTimeout : t.Gives ["read_timeout"] IsSeconds 0 s.readTimeout
  writeTimeout : t.Gives ["write_timeout"] IsSeconds 0 s.writeTimeout

theorem serverFields_other {f : Field ServerSettings} (hf : f ∈ serverFields root) {p : Place}
    {s s' : ServerSettings} (h : f.read p s = .ok s') :
    (f.name ≠ "host" → s'.host = s.host) ∧ (f.name ≠ "port" → s'.port = s.port) ∧
    (f.name ≠ "read_timeout" → s'.readTimeout = s.readTimeout) ∧
    (f.name ≠ "write_timeout" → s'.writeTimeout = s.writeTimeout) := by
  simp only [serverFields, List.mem_cons, List.not_mem_nil, or_false] at hf
  rcases hf with rfl | rfl | rfl | rfl
  all_goals
    obtain ⟨x, -, h⟩ := ok_of_bind h
    cases h
    simp

theorem isPort_ofNat {m : Nat} (h : t.Denotes m ∧ m ≤ UInt16.size - 1) : IsPort t (UInt16.ofNat m) := by
  have hlt : m < UInt16.size := Nat.lt_of_le_pred (by decide) h.2
  rw [IsPort, UInt16.toNat_ofNat_of_lt' hlt]
  exact h.1

theorem isSeconds_ofNat {m : Nat} (h : t.Denotes m ∧ m ≤ UInt64.size - 1) : IsSeconds t (UInt64.ofNat m) := by
  have hlt : m < UInt64.size := Nat.lt_of_le_pred (by decide) h.2
  rw [IsSeconds, UInt64.toNat_ofNat_of_lt' hlt]
  exact h.1

theorem isText_ofList {text : List Char} (h : t.text? = some text) : IsText t (String.ofList text) := by
  rw [IsText, h, String.toList_ofList]

theorem serverFields_own {f : Field ServerSettings} (hf : f ∈ serverFields root) (htree : n.tree? = some t)
    {s s' : ServerSettings} (h : f.read ⟨trail, n⟩ s = .ok s') :
    (f.name = "host" → IsText t s'.host) ∧ (f.name = "port" → IsPort t s'.port) ∧
    (f.name = "read_timeout" → IsSeconds t s'.readTimeout) ∧
    (f.name = "write_timeout" → IsSeconds t s'.writeTimeout) := by
  simp only [serverFields, List.mem_cons, List.not_mem_nil, or_false] at hf
  rcases hf with rfl | rfl | rfl | rfl
  all_goals
    obtain ⟨x, hx, h⟩ := ok_of_bind h
    cases h
  · simpa using isText_ofList ((readText_iff htree).1 hx)
  · simpa using isPort_ofNat ((readNat_iff htree).1 hx)
  · simpa using isSeconds_ofNat ((readNat_iff htree).1 hx)
  · simpa using isSeconds_ofNat ((readNat_iff htree).1 hx)

theorem readSection_gives {σ α : Type} {P : Tree → α → Prop} {get : σ → α} {key name : String}
    {names : List String} {accepts : String → Tree → Prop} {fields : Place → Mark → List (Field σ)} {start s : σ}
    (hreads : ∀ p mark, Reads (fields p mark) names accepts)
    (hobserves : ∀ p mark, Observes (fields p mark) key P get) (htree : n.tree? = some t)
    (h : readSection root name fields start ⟨trail, n⟩ = .ok s) : t.Gives [key] P (get start) (get s) := by
  obtain ⟨hsay, hmissing⟩ := readSection_observes hreads hobserves htree h
  exact Tree.gives_behind (fun v hv => Tree.gives_here (hsay v hv)) hmissing

theorem readServer_gives (htree : n.tree? = some t) {s : ServerSettings}
    (h : readSection root "ServerConfig" (fun _ _ => serverFields root) unset.server ⟨trail, n⟩ = .ok s) :
    ServerGives t s where
  host := readSection_gives (fun _ _ => serverFields_reads root) (fun _ _ => {
    known := by simp [serverFields]
    own := fun f hf hname _ _ _ _ _ htree h => (serverFields_own hf htree h).1 hname
    other := fun f hf hname _ _ _ h => (serverFields_other hf h).1 hname }) htree h
  port := readSection_gives (fun _ _ => serverFields_reads root) (fun _ _ => {
    known := by simp [serverFields]
    own := fun f hf hname _ _ _ _ _ htree h => (serverFields_own hf htree h).2.1 hname
    other := fun f hf hname _ _ _ h => (serverFields_other hf h).2.1 hname }) htree h
  readTimeout := readSection_gives (fun _ _ => serverFields_reads root) (fun _ _ => {
    known := by simp [serverFields]
    own := fun f hf hname _ _ _ _ _ htree h => (serverFields_own hf htree h).2.2.1 hname
    other := fun f hf hname _ _ _ h => (serverFields_other hf h).2.2.1 hname }) htree h
  writeTimeout := readSection_gives (fun _ _ => serverFields_reads root) (fun _ _ => {
    known := by simp [serverFields]
    own := fun f hf hname _ _ _ _ _ htree h => (serverFields_own hf htree h).2.2.2 hname
    other := fun f hf hname _ _ _ h => (serverFields_other hf h).2.2.2 hname }) htree h

/-! ## Logging -/

/-- What the fields of logging accept. -/
def loggingAccepts : String → Tree → Prop
  | "level" => Tree.IsScalar
  | "format" => fun t => t.text? = some "text".toList ∨ t.text? = some "json".toList
  | _ => fun _ => True

theorem isFormat_iff {f : LogFormat} : IsFormat t f ↔ t.text? = some (formatWord f).toList := by
  cases f <;> simp [IsFormat, formatWord]

theorem loggingFields_reads (root : Node) (outer : Place) (mark : Mark) :
    Reads (loggingFields root outer mark) loggingNames loggingAccepts where
  names := rfl
  accepts := by
    intro f hf trail n t s htree
    simp only [loggingFields, List.mem_cons, List.not_mem_nil, or_false] at hf
    rcases hf with rfl | rfl
    · simp only [isOk_bind_ok, readText_iff htree]
      rfl
    · simp only [isOk_bind_ok, readFormat_iff htree]
      constructor
      · rintro ⟨f, htext⟩
        cases f with
        | text => exact .inl htext
        | json => exact .inr htext
      · rintro (htext | htext)
        · exact ⟨.text, htext⟩
        · exact ⟨.json, htext⟩

/-- What the tree of logging says of its settings. -/
structure LoggingGives (t : Tree) (l : LogSettings) : Prop where
  level : t.Gives ["level"] IsText "" l.level
  format : t.Gives ["format"] IsFormat .text l.format

theorem loggingFields_other {outer : Place} {mark : Mark} {f : Field LogSettings}
    (hf : f ∈ loggingFields root outer mark) {p : Place} {l l' : LogSettings} (h : f.read p l = .ok l') :
    (f.name ≠ "level" → l'.level = l.level) ∧ (f.name ≠ "format" → l'.format = l.format) := by
  simp only [loggingFields, List.mem_cons, List.not_mem_nil, or_false] at hf
  rcases hf with rfl | rfl
  all_goals
    obtain ⟨x, -, h⟩ := ok_of_bind h
    cases h
    simp

theorem loggingFields_own {outer : Place} {mark : Mark} {f : Field LogSettings}
    (hf : f ∈ loggingFields root outer mark) (htree : n.tree? = some t) {l l' : LogSettings}
    (h : f.read ⟨trail, n⟩ l = .ok l') :
    (f.name = "level" → IsText t l'.level) ∧ (f.name = "format" → IsFormat t l'.format) := by
  simp only [loggingFields, List.mem_cons, List.not_mem_nil, or_false] at hf
  rcases hf with rfl | rfl
  all_goals
    obtain ⟨x, hx, h⟩ := ok_of_bind h
    cases h
  · simpa using isText_ofList ((readText_iff htree).1 hx)
  · simpa using isFormat_iff.2 ((readFormat_iff htree).1 hx)

theorem readLogging_gives (htree : n.tree? = some t) {l : LogSettings}
    (h : readSection root "LoggingConfig" (loggingFields root) unset.logging ⟨trail, n⟩ = .ok l) :
    LoggingGives t l where
  level := readSection_gives (loggingFields_reads root) (fun _ _ => {
    known := by simp [loggingFields]
    own := fun f hf hname _ _ _ _ _ htree h => (loggingFields_own hf htree h).1 hname
    other := fun f hf hname _ _ _ h => (loggingFields_other hf h).1 hname }) htree h
  format := readSection_gives (loggingFields_reads root) (fun _ _ => {
    known := by simp [loggingFields]
    own := fun f hf hname _ _ _ _ _ htree h => (loggingFields_own hf htree h).2 hname
    other := fun f hf hname _ _ _ h => (loggingFields_other hf h).2 hname }) htree h

/-! ## The root -/

/-- What the fields of the root accept. -/
def configAccepts : String → Tree → Prop
  | "server" => fun t => t.IsSection serverNames ∧ ∀ name ∈ serverNames, ∀ v ∈ t.valuesOf name, serverAccepts name v
  | "data_dir" => Tree.IsScalar
  | "agents_dir" => Tree.IsScalar
  | "logging" => fun t => t.IsSection loggingNames ∧ ∀ name ∈ loggingNames, ∀ v ∈ t.valuesOf name, loggingAccepts name v
  | _ => fun _ => True

theorem configFields_reads (root : Node) : Reads (configFields root) rootNames configAccepts where
  names := rfl
  accepts := by
    intro f hf trail n t s htree
    simp only [configFields, List.mem_cons, List.not_mem_nil, or_false] at hf
    rcases hf with rfl | rfl | rfl | rfl
    · simp only [isOk_bind_ok, readSection_isOk_iff (fun _ _ => serverFields_reads root) htree]
      rfl
    · simp only [readPath, isOk_bind_ok, readText_iff htree]
      rfl
    · simp only [readPath, isOk_bind_ok, readText_iff htree]
      rfl
    · simp only [isOk_bind_ok, readSection_isOk_iff (loggingFields_reads root) htree]
      rfl

theorem configFields_other {f : Field Config} (hf : f ∈ configFields root) {p : Place} {c c' : Config}
    (h : f.read p c = .ok c') :
    (f.name ≠ "server" → c'.server = c.server) ∧ (f.name ≠ "data_dir" → c'.dataDir = c.dataDir) ∧
    (f.name ≠ "agents_dir" → c'.agentsDir = c.agentsDir) ∧ (f.name ≠ "logging" → c'.logging = c.logging) := by
  simp only [configFields, List.mem_cons, List.not_mem_nil, or_false] at hf
  rcases hf with rfl | rfl | rfl | rfl
  all_goals
    obtain ⟨x, -, h⟩ := ok_of_bind h
    cases h
    simp

theorem readPath_says (htree : n.tree? = some t) {p : Path} (h : readPath root ⟨trail, n⟩ = .ok p) : IsPath t p := by
  obtain ⟨text, htext, h⟩ := ok_of_bind h
  cases h
  exact ⟨text, (readText_iff htree).1 htext, rfl⟩

theorem configFields_own {f : Field Config} (hf : f ∈ configFields root) (htree : n.tree? = some t)
    {c c' : Config} (h : f.read ⟨trail, n⟩ c = .ok c') :
    (f.name = "server" → ServerGives t c'.server) ∧ (f.name = "data_dir" → IsPath t c'.dataDir) ∧
    (f.name = "agents_dir" → IsPath t c'.agentsDir) ∧ (f.name = "logging" → LoggingGives t c'.logging) := by
  simp only [configFields, List.mem_cons, List.not_mem_nil, or_false] at hf
  rcases hf with rfl | rfl | rfl | rfl
  all_goals
    obtain ⟨x, hx, h⟩ := ok_of_bind h
    cases h
  · simpa using readServer_gives htree hx
  · simpa using readPath_says htree hx
  · simpa using readPath_says htree hx
  · simpa using readLogging_gives htree hx

theorem isShape_of_accepts (hroot : t.IsSection rootNames)
    (hvalues : ∀ name ∈ rootNames, ∀ v ∈ t.valuesOf name, configAccepts name v) : IsShape t := by
  have hserver : ∀ s ∈ t.valuesOf "server", s.IsSection serverNames ∧
      ∀ name ∈ serverNames, ∀ v ∈ s.valuesOf name, serverAccepts name v := hvalues "server" (by decide)
  have hlogging : ∀ s ∈ t.valuesOf "logging", s.IsSection loggingNames ∧
      ∀ name ∈ loggingNames, ∀ v ∈ s.valuesOf name, loggingAccepts name v := hvalues "logging" (by decide)
  have hdata : ∀ v ∈ t.valuesOf "data_dir", v.IsScalar := hvalues "data_dir" (by decide)
  have hagents : ∀ v ∈ t.valuesOf "agents_dir", v.IsScalar := hvalues "agents_dir" (by decide)
  constructor
  case root => exact hroot
  case sections =>
    simp only [sections, List.forall_mem_cons, List.not_mem_nil, false_implies, implies_true, and_true]
    exact ⟨fun s hs => (hserver s hs).1, fun s hs => (hlogging s hs).1⟩
  case texts =>
    simp only [List.forall_mem_cons, List.not_mem_nil, false_implies, implies_true, and_true, Tree.valuesAt_single,
      Tree.forall_valuesAt_pair]
    exact ⟨fun s hs => (hserver s hs).2 "host" (by decide), hdata, hagents,
      fun s hs => (hlogging s hs).2 "level" (by decide)⟩
  case port => exact Tree.forall_valuesAt_pair.2 fun s hs => (hserver s hs).2 "port" (by decide)
  case timeouts =>
    simp only [List.forall_mem_cons, List.not_mem_nil, false_implies, implies_true, and_true, Tree.forall_valuesAt_pair]
    exact ⟨fun s hs => (hserver s hs).2 "read_timeout" (by decide),
      fun s hs => (hserver s hs).2 "write_timeout" (by decide)⟩
  case format => exact Tree.forall_valuesAt_pair.2 fun s hs => (hlogging s hs).2 "format" (by decide)

theorem accepts_of_isShape (h : IsShape t) : ∀ name ∈ rootNames, ∀ v ∈ t.valuesOf name, configAccepts name v := by
  have hsections := h.sections
  have htexts := h.texts
  have htimeouts := h.timeouts
  simp only [sections, List.forall_mem_cons, List.not_mem_nil, false_implies, implies_true, and_true] at hsections
  simp only [List.forall_mem_cons, List.not_mem_nil, false_implies, implies_true, and_true, Tree.valuesAt_single,
    Tree.forall_valuesAt_pair] at htexts htimeouts
  obtain ⟨hhost, hdata, hagents, hlevel⟩ := htexts
  have hserver : ∀ s ∈ t.valuesOf "server", s.IsSection serverNames ∧
      ∀ name ∈ serverNames, ∀ v ∈ s.valuesOf name, serverAccepts name v := by
    intro s hs
    refine ⟨hsections.1 s hs, ?_⟩
    simp only [serverNames, List.forall_mem_cons, List.not_mem_nil, false_implies, implies_true, and_true]
    exact ⟨hhost s hs, Tree.forall_valuesAt_pair.1 h.port s hs, htimeouts.1 s hs, htimeouts.2 s hs⟩
  have hlogging : ∀ s ∈ t.valuesOf "logging", s.IsSection loggingNames ∧
      ∀ name ∈ loggingNames, ∀ v ∈ s.valuesOf name, loggingAccepts name v := by
    intro s hs
    refine ⟨hsections.2 s hs, ?_⟩
    simp only [loggingNames, List.forall_mem_cons, List.not_mem_nil, false_implies, implies_true, and_true]
    exact ⟨hlevel s hs, Tree.forall_valuesAt_pair.1 h.format s hs⟩
  simp only [rootNames, List.forall_mem_cons, List.not_mem_nil, false_implies, implies_true, and_true]
  exact ⟨hserver, hdata, hagents, hlogging⟩

/-- A tree is read as a configuration exactly when it has the shape of one. -/
theorem ofNode_isOk_iff (htree : root.tree? = some t) : (∃ f, ofNode root = .ok f) ↔ IsShape t := by
  have hsections : (∃ f, ofNode root = .ok f) ↔
      t.IsSection rootNames ∧ ∀ name ∈ rootNames, ∀ v ∈ t.valuesOf name, configAccepts name v :=
    readSection_isOk_iff (fun _ _ => configFields_reads root) htree
  rw [hsections]
  exact ⟨fun ⟨hroot, hvalues⟩ => isShape_of_accepts hroot hvalues, fun h => ⟨h.root, accepts_of_isShape h⟩⟩

/-- What the tree of a configuration says of it, before there are defaults. -/
structure ConfigGives (t : Tree) (f : Config) : Prop where
  host : t.Gives ["server", "host"] IsText "" f.server.host
  port : t.Gives ["server", "port"] IsPort 0 f.server.port
  readTimeout : t.Gives ["server", "read_timeout"] IsSeconds 0 f.server.readTimeout
  writeTimeout : t.Gives ["server", "write_timeout"] IsSeconds 0 f.server.writeTimeout
  dataDir : t.Gives ["data_dir"] IsPath ⟨[]⟩ f.dataDir
  agentsDir : t.Gives ["agents_dir"] IsPath ⟨[]⟩ f.agentsDir
  level : t.Gives ["logging", "level"] IsText "" f.logging.level
  format : t.Gives ["logging", "format"] IsFormat .text f.logging.format

theorem ofNode_gives (htree : root.tree? = some t) {f : Config} (h : ofNode root = .ok f) : ConfigGives t f := by
  have hreads := fun (_ : Place) (_ : Mark) => configFields_reads root
  obtain ⟨hserver, hnoserver⟩ := readSection_observes hreads (fun _ _ => {
    known := by simp [configFields]
    own := fun f hf hname _ _ _ _ _ htree h => (configFields_own hf htree h).1 hname
    other := fun f hf hname _ _ _ h => (configFields_other hf h).1 hname }) htree h
  obtain ⟨hlogging, hnologging⟩ := readSection_observes hreads (fun _ _ => {
    known := by simp [configFields]
    own := fun f hf hname _ _ _ _ _ htree h => (configFields_own hf htree h).2.2.2 hname
    other := fun f hf hname _ _ _ h => (configFields_other hf h).2.2.2 hname }) htree h
  have hdatadir : t.Gives ["data_dir"] IsPath unset.dataDir f.dataDir := readSection_gives hreads (fun _ _ => {
    known := by simp [configFields]
    own := fun f hf hname _ _ _ _ _ htree h => (configFields_own hf htree h).2.1 hname
    other := fun f hf hname _ _ _ h => (configFields_other hf h).2.1 hname }) htree h
  have hagentsdir : t.Gives ["agents_dir"] IsPath unset.agentsDir f.agentsDir := readSection_gives hreads (fun _ _ => {
    known := by simp [configFields]
    own := fun f hf hname _ _ _ _ _ htree h => (configFields_own hf htree h).2.2.1 hname
    other := fun f hf hname _ _ _ h => (configFields_other hf h).2.2.1 hname }) htree h
  exact {
    host := Tree.gives_behind (fun s hs => (hserver s hs).host) fun hnil => congrArg _ (hnoserver hnil)
    port := Tree.gives_behind (fun s hs => (hserver s hs).port) fun hnil => congrArg _ (hnoserver hnil)
    readTimeout := Tree.gives_behind (fun s hs => (hserver s hs).readTimeout) fun hnil => congrArg _ (hnoserver hnil)
    writeTimeout := Tree.gives_behind (fun s hs => (hserver s hs).writeTimeout) fun hnil => congrArg _ (hnoserver hnil)
    dataDir := hdatadir
    agentsDir := hagentsdir
    level := Tree.gives_behind (fun s hs => (hlogging s hs).level) fun hnil => congrArg _ (hnologging hnil)
    format := Tree.gives_behind (fun s hs => (hlogging s hs).format) fun hnil => congrArg _ (hnologging hnil) }

/-! ## Texts -/

theorem isEmpty_iff_eq (p : Path) : p.isEmpty = true ↔ p = ⟨[]⟩ := by
  cases p
  simp

/-- With the defaults a configuration is what its tree describes. -/
theorem ConfigGives.describes {f : Config} (h : ConfigGives t f) : Describes t f.withDefaults where
  host := h.host.settles
  port := h.port.settles
  readTimeout := h.readTimeout.settles
  writeTimeout := h.writeTimeout.settles
  dataDir := by
    simp only [withDefaults, isEmpty_iff_eq]
    exact h.dataDir.settles
  agentsDir := by
    simp only [withDefaults, isEmpty_iff_eq]
    exact h.agentsDir.settles
  level := h.level.settles
  format := by
    have hformat : t.Settles ["logging", "format"] IsFormat .text .text
        (if f.logging.format = .text then .text else f.logging.format) := h.format.settles
    rwa [ite_eq_right_iff.2 Eq.symm] at hformat

/-- A document is read if there is nothing wrong with it, it is the only one, and its tree is read. -/
theorem ofDocument_ok_iff {d : Document} {f : Config} :
    ofDocument d = .ok f ↔ d.fault = none ∧ d.more = false ∧ ofNode d.root = .ok f := by
  unfold ofDocument
  cases ofNode d.root with
  | ok c => cases d.fault <;> cases d.more <;> simp
  | error refusal => cases refusal <;> simp

theorem parse_ok_iff {text : List Char} (h : (Document.ofText text).Bare) {c : Config} :
    parse text = .ok c ↔ ∃ f, ofNode (Document.ofText text).root = .ok f ∧ f.withDefaults = c := by
  constructor
  · intro hparse
    obtain ⟨f, hf, hc⟩ := ok_of_map hparse
    exact ⟨f, (ofDocument_ok_iff.1 hf).2.2, hc⟩
  · rintro ⟨f, hf, rfl⟩
    rw [parse, ofText, ofDocument_ok_iff.2 ⟨h.fault, h.single, hf⟩]
    rfl

/-- A tree that a text is read from has the shape of a configuration and describes
what is read, and one of that shape is read. -/
theorem parse_ok_iff_describes {text : List Char} (h : (Document.ofText text).Bare) {t : Tree}
    (htree : (Document.ofText text).root.tree? = some t) {c : Config} :
    parse text = .ok c ↔ IsShape t ∧ Describes t c := by
  rw [parse_ok_iff h]
  constructor
  · rintro ⟨f, hf, rfl⟩
    exact ⟨(ofNode_isOk_iff htree).1 ⟨f, hf⟩, (ofNode_gives htree hf).describes⟩
  · rintro ⟨hshape, hc⟩
    obtain ⟨f, hf⟩ := (ofNode_isOk_iff htree).2 hshape
    exact ⟨f, hf, (ofNode_gives htree hf).describes.unique hshape hc⟩

/-- A bare document is a tree. It is read exactly when the tree has the shape of a
configuration, and then as the one configuration that the tree describes. Any text
whose tree comes from it by rearranging is read alike. -/
theorem parse_iff_shape {text : List Char} (h : (Document.ofText text).Bare) :
    ∃ t, (Document.ofText text).root.tree? = some t ∧
      ((∃ c, parse text = .ok c) ↔ IsShape t) ∧
      (∀ c, parse text = .ok c ↔ IsShape t ∧ Describes t c) ∧
      ∀ text' t', (Document.ofText text').Bare → (Document.ofText text').root.tree? = some t' →
        Relation.EqvGen Rearranged t t' → ∀ c, parse text' = .ok c ↔ parse text = .ok c := by
  obtain ⟨t, htree⟩ := h.exists_tree
  refine ⟨t, htree, ?_, fun c => parse_ok_iff_describes h htree, ?_⟩
  · rw [← ofNode_isOk_iff htree]
    constructor
    · rintro ⟨c, hc⟩
      obtain ⟨f, hf, -⟩ := (parse_ok_iff h).1 hc
      exact ⟨f, hf⟩
    · rintro ⟨f, hf⟩
      exact ⟨f.withDefaults, (parse_ok_iff h).2 ⟨f, hf, rfl⟩⟩
  · intro text' t' h' htree' hsame c
    rw [parse_ok_iff_describes h' htree', parse_ok_iff_describes h htree]
    exact (rearranged_iff hsame c).symm

/-- A text with its entries in no usual order, a number in another radix and keys
that are not known. -/
def mixedText : List Char :=
  "x: [1, \x7by: 2\x7d]\nlogging: \x7bformat: json, 'level': \x7d\nserver:\n  tls: true\n  port: +0x46\n".toList

theorem parse_iff_shape_mixed :
    (Document.ofText mixedText).Bare ∧ ∃ t, (Document.ofText mixedText).root.tree? = some t ∧ IsShape t ∧
      Describes t ⟨⟨"0.0.0.0", 70, 30, 30⟩, .ofString "./.agnx", .ofString "./.agnx/agents", ⟨"info", .json⟩⟩ := by
  have hbare : (Document.ofText mixedText).Bare := ⟨by decide +kernel, by decide +kernel, by decide +kernel⟩
  have hparse : parse mixedText =
      .ok ⟨⟨"0.0.0.0", 70, 30, 30⟩, .ofString "./.agnx", .ofString "./.agnx/agents", ⟨"info", .json⟩⟩ :=
    ok_of_toOption (by decide +kernel)
  obtain ⟨t, htree, -, hdescribes, -⟩ := parse_iff_shape hbare
  exact ⟨hbare, t, htree, (hdescribes _).1 hparse⟩

end Config

end AgentHost
