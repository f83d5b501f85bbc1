import AgentHost.Config.Load
import AgentHost.Proofs.Except
import AgentHost.Proofs.Text.Lines
/-!
# Messages on one line

The message on a configuration that is not loaded is on one line, but for what it
repeats as it stands: the path of the file, and the name of a format that is not
known. Values are quoted, and the keys on the way to a value are known ones, so no
other text of a document comes into a message. The proof follows the readers: what
each of them refuses is on one line if the way to its value is.
-/

namespace AgentHost

open Text

/-! ## The parts of a message -/

namespace Yaml

theorem Mark.oneLine_suffix (m : Mark) : OneLine m.suffix := by
  refine oneLine_ite (.ofChars rfl) (.append (.ofChars rfl) ?_)
  simp only [Mark.describe, oneLine_append]
  exact ⟨⟨⟨.ofChars rfl, oneLine_nat _⟩, .ofChars rfl⟩, oneLine_nat _⟩

theorem Problem.oneLine_message (p : Problem) : OneLine p.message := by
  cases p <;> exact .ofChars rfl

theorem Construct.oneLine_message (c : Construct) : OneLine c.message := by
  cases c <;> exact .ofChars rfl

theorem Fault.oneLine_message (f : Fault) : OneLine f.message := by
  match f with
  | .character 0 => exact .ofChars rfl
  | .character (n + 1) => exact .append (.ofChars rfl) (oneLine_nat _)
  | .malformed problem place none => exact .append problem.oneLine_message place.oneLine_suffix
  | .malformed problem place (some (construct, began)) =>
    have hbegan : OneLine (if (began.line, began.column) = (place.line, place.column) then "" else began.suffix) :=
      oneLine_ite (.ofChars rfl) began.oneLine_suffix
    have hfront : OneLine (problem.message ++ place.suffix ++ ", ") :=
      (problem.oneLine_message.append place.oneLine_suffix).append (.ofChars rfl)
    exact (hfront.append construct.oneLine_message).append hbegan
  | .unknownAnchor place => exact .append (.ofChars rfl) place.oneLine_suffix

end Yaml

namespace IoError

theorem oneLine_system (n : Int) : OneLine (system n).message := by
  have htexts : ∀ entry ∈ texts, OneLine entry.2 := by
    unfold texts
    repeat refine List.forall_mem_cons.2 ⟨.ofChars rfl, ?_⟩
    exact fun _ h => nomatch h
  have htext : OneLine ((texts.lookup n).getD ("Unknown error " ++ toString n)) := by
    cases hfound : texts.lookup n with
    | none => exact .append (.ofChars rfl) (oneLine_int n)
    | some text =>
      obtain ⟨before, behind, hsplit, -⟩ := List.lookup_eq_some_iff.1 hfound
      exact htexts (n, text) (hsplit ▸ List.mem_append_right before List.mem_cons_self)
  simp only [message, oneLine_append]
  exact ⟨⟨⟨htext, .ofChars rfl⟩, oneLine_int n⟩, .ofChars rfl⟩

end IoError

namespace Files

/-- A walk fails with a number of the system. The induction is on the fuel, which every step uses some of. -/
theorem walk_error {files : Files} {fuel links : Nat} {here todo : List Bytes} {e : IoError}
    (h : files.walk fuel links here todo = .error e) : ∃ n, e = .system n := by
  induction fuel generalizing links here todo with
  | zero =>
    cases h
    exact ⟨_, rfl⟩
  | succ fuel ih =>
    unfold walk at h
    split at h
    · cases h
      exact ⟨_, rfl⟩
    · split at h
      · cases h
      · cases h
        exact ⟨_, rfl⟩
    · split at h
      · cases h
        exact ⟨_, rfl⟩
      · exact ih h
    · split at h
      · cases h
      · split at h
        · exact ih h
        · split at h
          · exact ih h
          · split at h
            · cases h
              exact ⟨_, rfl⟩
            · exact ih h

theorem oneLine_read {files : Files} {path : Path} {e : IoError} (h : files.read path = .error e) :
    OneLine e.message := by
  unfold read at h
  split at h
  · cases h
    exact .ofChars rfl
  split at h
  · cases h
    exact IoError.oneLine_system 2
  split at h
  · cases h
    exact IoError.oneLine_system 36
  simp only at h
  split at h
  case h_1 hwalk =>
    cases h
    obtain ⟨n, rfl⟩ := walk_error hwalk
    exact IoError.oneLine_system n
  case h_2 => cases h
  case h_3 =>
    cases h
    exact IoError.oneLine_system 21

theorem oneLine_text {bytes : Bytes} {e : IoError} (h : text bytes = .error e) : OneLine e.message := by
  unfold text at h
  split at h
  · cases h
  · cases h
    exact .ofChars rfl

end Files

namespace Config

open Yaml

/-! ## What a message repeats -/

/-- The texts that stand in the reason as they are. -/
def Reason.verbatim : Reason → List String
  | .unknownVariant name => [String.ofList name]
  | _ => []

/-- The texts that stand in the error as they are. -/
def TextError.verbatim : TextError → List String
  | .mismatch m => m.reason.verbatim
  | _ => []

/-- The texts that stand in the error as they are. -/
def LoadError.verbatim : LoadError → List String
  | .io path _ => [path.lossy]
  | .yaml cause => cause.verbatim

/-! ## Reasons -/

theorem Expected.oneLine_message {expected : Expected} (h : ∀ name, expected = .record name → OneLine name) :
    OneLine expected.message := by
  cases expected with
  | record name => exact .append (.ofChars rfl) (h name rfl)
  | _ => exact .ofChars rfl

theorem Found.oneLine_message (found : Found) : OneLine found.message := by
  cases found with
  | nothing => exact .ofChars rfl
  | bool b => exact .append (.append (.ofChars rfl) (by cases b <;> exact .ofChars rfl)) (.ofChars rfl)
  | integer n =>
    have hkind : OneLine (if n < -(UInt64.size / 2 : Nat) then " as i128" else "") :=
      oneLine_ite (.ofChars rfl) (.ofChars rfl)
    exact .append (.append (.append (.ofChars rfl) (oneLine_int n)) (.ofChars rfl)) (oneLine_ite (.ofChars rfl) hkind)
  | float x => exact .append (.append (.ofChars rfl) (oneLine_plain _ x)) (.ofChars rfl)
  | string text => exact .append (.ofChars rfl) (Quoted.oneLine_ofString _)
  | sequence => exact .ofChars rfl
  | mapping => exact .ofChars rfl

/-- The reason is on one line if what it repeats is. -/
def Reason.IsPlain (r : Reason) : Prop := OneLine r.message ↔ ∀ text ∈ r.verbatim, OneLine text

theorem Reason.isPlain_of_oneLine {r : Reason} (h : OneLine r.message) (hnone : r.verbatim = []) : r.IsPlain := by
  rw [IsPlain, hnone]
  exact iff_of_true h fun _ hmem => nomatch hmem

theorem oneLine_instead {front : String} (hfront : OneLine front) (found : Found) {expected : Expected}
    (h : OneLine expected.message) : OneLine (front ++ found.message ++ ", expected " ++ expected.message) :=
  ((hfront.append found.oneLine_message).append (.ofChars rfl)).append h

theorem Reason.isPlain_wrongType (found : Found) {expected : Expected} (h : OneLine expected.message) :
    (Reason.wrongType found expected).IsPlain :=
  isPlain_of_oneLine (oneLine_instead (.ofChars rfl) found h) rfl

theorem Reason.isPlain_wrongValue (found : Found) {expected : Expected} (h : OneLine expected.message) :
    (Reason.wrongValue found expected).IsPlain :=
  isPlain_of_oneLine (oneLine_instead (.ofChars rfl) found h) rfl

theorem Reason.isPlain_duplicateField {name : String} (h : OneLine name) : (Reason.duplicateField name).IsPlain := by
  have hline : OneLine ("duplicate field `" ++ name ++ "`") := .append (.append (.ofChars rfl) h) (.ofChars rfl)
  exact isPlain_of_oneLine hline rfl

theorem Reason.isPlain_unknownVariant (name : List Char) : (Reason.unknownVariant name).IsPlain := by
  have hline : OneLine ("unknown variant `" ++ String.ofList name ++ "`, expected `text` or `json`") ↔
      OneLine (String.ofList name) := by
    simp only [oneLine_append]
    exact ⟨fun h => h.1.2, fun h => ⟨⟨.ofChars rfl, h⟩, .ofChars rfl⟩⟩
  exact hline.trans List.forall_mem_singleton.symm

/-! ## The way to a value -/

theorem oneLine_trail {step : Step} {outer : Trail} (hstep : ∀ name, step = .key name → OneLine (String.ofList name))
    (houter : OneLine (trailMessage outer)) : OneLine (trailMessage (step :: outer)) := by
  have hfront : OneLine (if outer.isEmpty then "" else trailMessage outer ++ ".") :=
    oneLine_ite (.ofChars rfl) (.append houter (.ofChars rfl))
  unfold trailMessage
  cases step with
  | key name => exact .append hfront (hstep name rfl)
  | unnamed => exact .append hfront (.ofChars rfl)
  | _ => exact hfront

/-- The way to the place is on one line. -/
def Place.IsPlain (p : Place) : Prop := OneLine (trailMessage p.trail)

theorem Place.IsPlain.follow {p : Place} (h : p.IsPlain) (root : Node) : (p.follow root).IsPlain := by
  unfold Place.follow
  split
  · exact oneLine_trail (fun _ hkey => nomatch hkey) h
  · exact h

/-! ## Readers -/

/-- What is refused is on one line but for what it repeats. -/
def RefusesPlainly {α : Type} (x : Except Refusal α) : Prop :=
  ∀ m, x = .error (.mismatch m) → OneLine (trailMessage m.trail) ∧ m.reason.IsPlain

namespace RefusesPlainly

variable {α β σ : Type}

theorem ok (a : α) : RefusesPlainly (.ok a) := fun _ h => nomatch h

theorem cut : RefusesPlainly (.error .cut : Except Refusal α) := fun _ h => nomatch h

theorem refuse {p : Place} (hp : p.IsPlain) (mark : Mark) {reason : Reason} (hreason : reason.IsPlain) :
    RefusesPlainly (Config.refuse p mark reason : Except Refusal α) := by
  intro m h
  cases h
  exact ⟨hp, hreason⟩

theorem bind {x : Except Refusal α} {f : α → Except Refusal β} (hx : RefusesPlainly x)
    (hf : ∀ a, x = .ok a → RefusesPlainly (f a)) : RefusesPlainly (x >>= f) := by
  cases x with
  | error refusal =>
    intro m h
    cases h
    exact hx m rfl
  | ok a => exact hf a rfl

theorem map {x : Except Refusal α} (hx : RefusesPlainly x) (f : α → β) : RefusesPlainly (x.map f) := by
  rw [← bind_ok_eq_map]
  exact hx.bind fun a _ => .ok _

end RefusesPlainly

section Readers

variable {root : Node} {p : Place}

theorem scalarReason_isPlain {tag : Option (List Char)} {text : List Char} {style : Style} {expected : Expected}
    (h : OneLine expected.message) : (scalarReason tag text style expected).IsPlain := by
  have huntagged : (Reason.wrongType (if style = .plain then Found.ofPlain text else .string text) expected).IsPlain :=
    Reason.isPlain_wrongType _ h
  unfold scalarReason
  simp only
  split
  · exact huntagged
  · iterate 4
      split
      · split
        · exact Reason.isPlain_wrongType _ h
        · exact Reason.isPlain_wrongValue _ (.ofChars rfl)
    split
    · exact huntagged
    · exact Reason.isPlain_wrongType _ h

theorem wrongKind_plainly {α : Type} (hp : p.IsPlain) {expected : Expected} (h : OneLine expected.message) :
    RefusesPlainly (wrongKind p expected : Except Refusal α) := by
  unfold wrongKind
  split
  · exact .refuse hp _ (scalarReason_isPlain h)
  · exact .refuse hp _ (Reason.isPlain_wrongType _ h)
  · exact .refuse hp _ (Reason.isPlain_wrongType _ h)
  · exact .cut
  · exact .cut

theorem readText_plainly (hp : p.IsPlain) {expected : Expected} (h : OneLine expected.message) :
    RefusesPlainly (readText root expected p) := by
  unfold readText
  simp only
  split
  · exact .ok _
  · exact wrongKind_plainly (hp.follow root) h

theorem readNat_plainly (hp : p.IsPlain) {expected : Expected} (h : OneLine expected.message) (limit : Nat) :
    RefusesPlainly (readNat root expected limit p) := by
  have hkind : RefusesPlainly (wrongKind (p.follow root) expected : Except Refusal Nat) :=
    wrongKind_plainly (hp.follow root) h
  unfold readNat
  simp only
  split
  · split
    · split
      · exact .ok _
      · split
        · exact .refuse (hp.follow root) _ (Reason.isPlain_wrongValue _ h)
        · exact hkind
    · exact hkind
  · exact hkind

theorem readUnit_plainly (hp : p.IsPlain) : RefusesPlainly (readUnit p) := by
  unfold readUnit
  split
  · split
    · exact wrongKind_plainly hp (.ofChars rfl)
    · split
      · exact .ok _
      · exact .refuse hp _ (Reason.isPlain_wrongValue _ (.ofChars rfl))
  · exact wrongKind_plainly hp (.ofChars rfl)

theorem readFormat_plainly {outer : Place} (houter : outer.IsPlain) (mark : Mark) (hp : p.IsPlain) :
    RefusesPlainly (readFormat root outer mark p) := by
  unfold readFormat
  simp only
  split
  · split
    · split
      · exact (readUnit_plainly (hp.follow root)).map _
      · exact .refuse hp _ (Reason.isPlain_unknownVariant _)
      · exact .refuse houter _ (Reason.isPlain_unknownVariant _)
    · split
      · exact .ok _
      · exact .refuse (hp.follow root) _ (Reason.isPlain_unknownVariant _)
  iterate 2
    split
    · split
      · exact (readUnit_plainly (hp.follow root)).map _
      · exact .refuse hp _ (Reason.isPlain_unknownVariant _)
      · exact .refuse houter _ (Reason.isPlain_unknownVariant _)
    · exact wrongKind_plainly (hp.follow root) (.ofChars rfl)
  · exact .cut
  · exact .cut

theorem readPath_plainly (hp : p.IsPlain) : RefusesPlainly (readPath root p) :=
  (readText_plainly hp (show OneLine Expected.path.message from .ofChars rfl)).bind fun _ _ => .ok _

theorem readKey_plainly {outer : Place} (houter : outer.IsPlain) (key : Node) :
    RefusesPlainly (readKey root outer.trail key) :=
  (readText_plainly (p := ⟨outer.trail, key⟩) houter (show OneLine Expected.fieldName.message from .ofChars rfl)).bind
    fun _ _ => .ok _

/-- A step to a value is its key, if that is written there. -/
theorem readKey_step {trail : Trail} {key : Node} {name : List Char} {step : Step}
    (h : readKey root trail key = .ok (name, step)) : step = .key name ∨ step = .unnamed := by
  obtain ⟨text, -, hkey⟩ := ok_of_bind h
  cases key <;> cases hkey <;> simp

/-- A field whose name is on one line refuses plainly what is wrong with its value. -/
structure Field.IsPlain {σ : Type} (f : Field σ) : Prop where
  name : OneLine f.name
  read : ∀ (p : Place) (s : σ), p.IsPlain → RefusesPlainly (f.read p s)

/-- Only the names of known fields come into the way to a value. -/
theorem readEntries_plainly {σ : Type} {fields : List (Field σ)} (hfields : ∀ f ∈ fields, f.IsPlain) (hp : p.IsPlain)
    (mark : Mark) (seen : List String) (entries : List (Node × Node)) (s : σ) :
    RefusesPlainly (readEntries root fields p mark seen entries s) := by
  induction entries generalizing seen s with
  | nil => exact .ok s
  | cons e rest ih =>
    unfold readEntries
    refine (readKey_plainly hp e.1).bind fun key hkey => ?_
    obtain ⟨name, step⟩ := key
    simp only
    split
    case h_1 f hfound =>
      have hplain := hfields f (List.mem_of_find?_eq_some hfound)
      have hfound := List.find?_some hfound
      have hname : f.name.toList = name := eq_of_beq hfound
      split
      · exact .refuse hp mark (Reason.isPlain_duplicateField hplain.name)
      · have hplace : Place.IsPlain ⟨step :: p.trail, e.2⟩ := by
          refine oneLine_trail (fun text htext => ?_) hp
          rcases readKey_step hkey with rfl | rfl
          · cases htext
            rw [← hname, String.ofList_toList]
            exact hplain.name
          · cases htext
        exact (hplain.read _ s hplace).bind fun s' _ => ih _ s'
    case h_2 =>
      split
      · exact ih seen s
      · exact .cut

theorem readSection_plainly {σ : Type} {name : String} (hname : OneLine name)
    {fields : Place → Mark → List (Field σ)} (hfields : ∀ p mark, p.IsPlain → ∀ f ∈ fields p mark, f.IsPlain) (start : σ)
    (hp : p.IsPlain) : RefusesPlainly (readSection root name fields start p) := by
  unfold readSection
  simp only
  split
  · exact readEntries_plainly (hfields _ _ (hp.follow root)) (hp.follow root) _ _ _ _
  · exact .ok _
  · exact wrongKind_plainly (hp.follow root) (Expected.oneLine_message fun _ h => by cases h; exact hname)

theorem serverFields_plain : ∀ f ∈ serverFields root, f.IsPlain := by
  simp only [serverFields, List.forall_mem_cons, List.not_mem_nil, false_implies, implies_true, and_true]
  refine ⟨⟨(show OneLine "host" from .ofChars rfl), fun p s hp => ?_⟩, ⟨(show OneLine "port" from .ofChars rfl), fun p s hp => ?_⟩,
    ⟨(show OneLine "read_timeout" from .ofChars rfl), fun p s hp => ?_⟩, ⟨(show OneLine "write_timeout" from .ofChars rfl), fun p s hp => ?_⟩⟩
  · exact (readText_plainly hp (show OneLine Expected.string.message from .ofChars rfl)).bind fun _ _ => .ok _
  · exact (readNat_plainly hp (show OneLine Expected.word16.message from .ofChars rfl) _).bind fun _ _ => .ok _
  · exact (readNat_plainly hp (show OneLine Expected.word64.message from .ofChars rfl) _).bind fun _ _ => .ok _
  · exact (readNat_plainly hp (show OneLine Expected.word64.message from .ofChars rfl) _).bind fun _ _ => .ok _

theorem loggingFields_plain {outer : Place} (houter : outer.IsPlain) (mark : Mark) :
    ∀ f ∈ loggingFields root outer mark, f.IsPlain := by
  simp only [loggingFields, List.forall_mem_cons, List.not_mem_nil, false_implies, implies_true, and_true]
  refine ⟨⟨(show OneLine "level" from .ofChars rfl), fun p s hp => ?_⟩, ⟨(show OneLine "format" from .ofChars rfl), fun p s hp => ?_⟩⟩
  · exact (readText_plainly hp (show OneLine Expected.string.message from .ofChars rfl)).bind fun _ _ => .ok _
  · exact (readFormat_plainly houter mark hp).bind fun _ _ => .ok _

theorem configFields_plain : ∀ f ∈ configFields root, f.IsPlain := by
  simp only [configFields, List.forall_mem_cons, List.not_mem_nil, false_implies, implies_true, and_true]
  refine ⟨⟨(show OneLine "server" from .ofChars rfl), fun p c hp => ?_⟩, ⟨(show OneLine "data_dir" from .ofChars rfl), fun p c hp => ?_⟩,
    ⟨(show OneLine "agents_dir" from .ofChars rfl), fun p c hp => ?_⟩, ⟨(show OneLine "logging" from .ofChars rfl), fun p c hp => ?_⟩⟩
  · exact (readSection_plainly (.ofChars rfl) (fun _ _ _ => serverFields_plain) _ hp).bind fun _ _ => .ok _
  · exact (readPath_plainly hp).bind fun _ _ => .ok _
  · exact (readPath_plainly hp).bind fun _ _ => .ok _
  · exact (readSection_plainly (.ofChars rfl) (fun _ mark houter => loggingFields_plain houter mark) _ hp).bind
      fun _ _ => .ok _

theorem ofNode_plainly (root : Node) : RefusesPlainly (ofNode root) :=
  readSection_plainly (.ofChars rfl) (fun _ _ _ => configFields_plain) _ (show OneLine (trailMessage []) from .ofChars rfl)

end Readers

/-! ## The whole message -/

theorem Mismatch.oneLine_message_iff {m : Mismatch} (htrail : OneLine (trailMessage m.trail)) (hreason : m.reason.IsPlain) :
    OneLine m.message ↔ ∀ text ∈ m.reason.verbatim, OneLine text := by
  have hfront : OneLine (if m.trail.isEmpty then "" else trailMessage m.trail ++ ": ") :=
    oneLine_ite (.ofChars rfl) (.append htrail (.ofChars rfl))
  have hmessage : OneLine m.message ↔ OneLine m.reason.message := by
    simp only [message, oneLine_append]
    exact ⟨fun h => h.1.2, fun h => ⟨⟨hfront, h⟩, m.mark.oneLine_suffix⟩⟩
  exact hmessage.trans hreason

theorem parse_message_iff {text : List Char} {e : TextError} (h : parse text = .error e) :
    OneLine e.message ↔ ∀ text ∈ e.verbatim, OneLine text := by
  have hnone : ∀ {e : TextError}, OneLine e.message → e.verbatim = [] →
      (OneLine e.message ↔ ∀ text ∈ e.verbatim, OneLine text) := by
    intro e hline hnil
    rw [hnil]
    exact iff_of_true hline fun _ hmem => nomatch hmem
  have hread := error_of_map h
  unfold ofText ofDocument at hread
  split at hread
  case h_1 _ m hnode =>
    cases hread
    obtain ⟨htrail, hreason⟩ := ofNode_plainly _ m hnode
    exact Mismatch.oneLine_message_iff htrail hreason
  case h_2 =>
    cases hread
    exact hnone (Fault.oneLine_message _) rfl
  case h_3 fault _ _ =>
    cases hread
    exact hnone fault.oneLine_message rfl
  case h_4 =>
    split at hread
    · cases hread
      exact hnone (.ofChars rfl) rfl
    · cases hread

theorem oneLine_content {files : Files} {path : Path} {cause : IoError}
    (h : (files.read path).bind Files.text = .error cause) : OneLine cause.message := by
  cases hread : files.read path with
  | error e =>
    rw [hread] at h
    cases h
    exact Files.oneLine_read hread
  | ok bytes =>
    rw [hread] at h
    exact Files.oneLine_text h

/-- What there is to say of a configuration that is not loaded is on one line if the
texts that it repeats are. -/
theorem load_message_iff {files : Files} {path : Option Path} {e : LoadError} (h : load files path = .error e) :
    OneLine e.message ↔ ∀ text ∈ e.verbatim, OneLine text := by
  unfold load at h
  split at h
  · cases h
  case h_2 path _ =>
    unfold ofFile at h
    split at h
    case h_1 cause hcause =>
      cases h
      have hline := oneLine_content hcause
      have hmessage : OneLine ("failed to read config file " ++ path.lossy ++ ": " ++ cause.message) ↔
          OneLine path.lossy := by
        simp only [oneLine_append]
        exact ⟨fun h => h.1.1.2, fun h => ⟨⟨⟨.ofChars rfl, h⟩, .ofChars rfl⟩, hline⟩⟩
      exact hmessage.trans List.forall_mem_singleton.symm
    case h_2 text _ =>
      cases hparse : parse text with
      | ok c =>
        rw [hparse] at h
        cases h
      | error cause =>
        rw [hparse] at h
        cases h
        have hmessage : OneLine ("failed to parse config YAML: " ++ cause.message) ↔ OneLine cause.message := by
          rw [oneLine_append]
          exact ⟨fun h => h.2, fun h => ⟨.ofChars rfl, h⟩⟩
        exact hmessage.trans (parse_message_iff hparse)

end Config

end AgentHost
