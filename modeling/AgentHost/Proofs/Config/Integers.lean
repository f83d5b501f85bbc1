import AgentHost.Proofs.Config.Independent
import AgentHost.Proofs.Config.Parsing
/-!
# Integers are read exactly or not at all

Three fields of the server hold an integer of a fixed width. In any document whose
other values are in order, a plain scalar in such a field decides alone whether the
document is read: it has to be a numeral whose value fits (`parse_number`). That
value then is the field's, or the default where it is zero.
-/

namespace AgentHost.Config

open Yaml

/-! ## The fields -/

/-- A field of the server that holds an integer. -/
inductive NumberField where
  | port
  | readTimeout
  | writeTimeout
  deriving DecidableEq

namespace NumberField

/-- The key of the field. -/
def name : NumberField → String
  | .port => "port"
  | .readTimeout => "read_timeout"
  | .writeTimeout => "write_timeout"

/-- The largest number that the field holds. -/
def limit : NumberField → Nat
  | .port => 65535
  | .readTimeout => 18446744073709551615
  | .writeTimeout => 18446744073709551615

/-- The number in the field when none is given. -/
def default : NumberField → Nat
  | .port => 8080
  | .readTimeout => 30
  | .writeTimeout => 30

/-- What the field is expected to hold. -/
def expected : NumberField → Expected
  | .port => .word16
  | .readTimeout => .word64
  | .writeTimeout => .word64

/-- The number in the field. -/
def get (c : Config) : NumberField → Nat
  | .port => c.server.port.toNat
  | .readTimeout => c.server.readTimeout.toNat
  | .writeTimeout => c.server.writeTimeout.toNat

/-- The settings with that number in the field. -/
def put (n : Nat) (s : ServerSettings) : NumberField → ServerSettings
  | .port => { s with port := .ofNat n }
  | .readTimeout => { s with readTimeout := .ofNat n }
  | .writeTimeout => { s with writeTimeout := .ofNat n }

end NumberField

/-- The configuration with that server. -/
def putServer (s : ServerSettings) (c : Config) : Config := { c with server := s }

/-! ## Documents that give a number -/

/-- The text of the plain scalar without a tag that a node stands for. -/
def plainText? (root n : Node) : Option (List Char) :=
  match resolve root n with
  | .scalar _ _ none text .plain => some text
  | _ => none

/-- The document gives the plain scalar, which has no tag, to the field. -/
def IsGiven (root : Node) (x : NumberField) (text : List Char) : Prop :=
  ∃ server ∈ valuesOf root root "server", ∃ v ∈ valuesOf root server x.name, plainText? root v = some text

instance (root : Node) (x : NumberField) (text : List Char) : Decidable (IsGiven root x text) :=
  inferInstanceAs (Decidable (∃ server ∈ valuesOf root root "server", ∃ v ∈ valuesOf root server x.name,
    plainText? root v = some text))

/-- Reads the server with what `value` says in the field. -/
def readServer (root : Node) (x : NumberField) (value : Place → Except Refusal Nat) (p : Place) :
    Except Refusal ServerSettings :=
  readSection root "ServerConfig" (fun _ _ => taking x.name value (fun n s => x.put n s) (serverFields root))
    unset.server p

/-- Reads the configuration with what `value` says in the field. -/
def ofNodeTaking (root : Node) (x : NumberField) (value : Place → Except Refusal Nat) : Except Refusal Config :=
  readSection root "Config" (fun _ _ => taking "server" (readServer root x value) putServer (configFields root)) unset
    ⟨[], root⟩

/-- The document is a configuration when the value of the field is passed over as if it
were not set. -/
structure OtherwiseReads (d : Document) (x : NumberField) (f : Config) : Prop where
  fault : d.fault = none
  single : d.more = false
  fields : ofNodeTaking d.root x (fun _ => .ok 0) = .ok f

namespace NumberField

/-- The configuration with that number in the field. -/
def set (x : NumberField) (n : Nat) (c : Config) : Config := putServer (x.put n c.server) c

end NumberField

/-! ## The fields read their values by themselves -/

variable {root : Node}

theorem serverFields_independent (root : Node) (x : NumberField) :
    Independent (serverFields root) x.name (fun n s => x.put n s) where
  known := by
    cases x with
    | port => exact ⟨_, .tail _ (.head _), rfl⟩
    | readTimeout => exact ⟨_, .tail _ (.tail _ (.head _)), rfl⟩
    | writeTimeout => exact ⟨_, .tail _ (.tail _ (.tail _ (.head _))), rfl⟩
  other := by
    intro f hf hname p s n
    simp only [serverFields, List.mem_cons, List.not_mem_nil, or_false] at hf
    rcases hf with rfl | rfl | rfl | rfl
    all_goals
      refine map_bind_ok fun a => ?_
      cases x with
      | port => first | rfl | exact absurd rfl hname
      | readTimeout => first | rfl | exact absurd rfl hname
      | writeTimeout => first | rfl | exact absurd rfl hname
  put_put := by
    intro m n s
    cases x <;> rfl

theorem serverFields_number (x : NumberField) : taking x.name (readNat root x.expected x.limit) (fun n s => x.put n s)
    (serverFields root) = serverFields root := by
  apply taking_own
  intro f hf hname p s
  simp only [serverFields, List.mem_cons, List.not_mem_nil, or_false] at hf
  rcases hf with rfl | rfl | rfl | rfl <;> cases x <;> first
    | exact bind_ok_eq_map
    | simp [NumberField.name] at hname

theorem configFields_independent (root : Node) : Independent (configFields root) "server" putServer where
  known := ⟨_, .head _, rfl⟩
  other := by
    intro f hf hname p c s
    simp only [configFields, List.mem_cons, List.not_mem_nil, or_false] at hf
    rcases hf with rfl | rfl | rfl | rfl
    · exact absurd rfl hname
    all_goals exact map_bind_ok fun _ => rfl
  put_put := fun _ _ _ => rfl

/-- The configuration is read with the number that the field has. -/
theorem ofNodeTaking_number (root : Node) (x : NumberField) :
    ofNodeTaking root x (readNat root x.expected x.limit) = ofNode root := by
  have hserver : taking "server" (readServer root x (readNat root x.expected x.limit)) putServer (configFields root) =
      configFields root := by
    apply taking_own
    intro f hf hname p c
    have hread : readServer root x (readNat root x.expected x.limit) p =
        readSection root "ServerConfig" (fun _ _ => serverFields root) unset.server p := by
      simp only [readServer, serverFields_number]
    rw [hread]
    simp only [configFields, List.mem_cons, List.not_mem_nil, or_false] at hf
    rcases hf with rfl | rfl | rfl | rfl <;> first
      | exact bind_ok_eq_map
      | simp at hname
  rw [ofNodeTaking, ofNode, hserver]

/-! ## The number decides -/

/-- What is read with one number is read with any other, but for that number. -/
theorem ofNodeTaking_given {x : NumberField} {value : Place → Except Refusal Nat} {text : List Char} {f : Config}
    (hread : ofNodeTaking root x value = .ok f) (hgiven : IsGiven root x text) :
    ∃ p : Place, plainText? root p.node = some text ∧ (∃ n, value p = .ok n) ∧
      ∀ value', ofNodeTaking root x value' = (value' p).map fun n => x.set n f := by
  obtain ⟨server, hserver, v, hfield, htext⟩ := hgiven
  obtain ⟨trail, s, hsettings, hput, hconfig⟩ := readSection_taking (configFields_independent root) hread hserver
  obtain ⟨trail', n, hnumber, -, hsection⟩ :=
    readSection_taking (serverFields_independent root x) hsettings (p := ⟨trail, server⟩) hfield
  refine ⟨⟨trail', v⟩, htext, ⟨n, hnumber⟩, fun value' => ?_⟩
  have hsame : f.server = s := by rw [← hput]; rfl
  have hother := hconfig (readServer root x value')
  rw [ofNodeTaking, hother, readServer, hsection value']
  cases value' ⟨trail', v⟩ with
  | error refusal => rfl
  | ok m =>
    subst hsame
    rfl

/-- A plain scalar without a tag is read as the number that it denotes, up to the limit. -/
theorem readNat_given {p : Place} {text : List Char} (h : plainText? root p.node = some text) {expected : Expected}
    {limit n : Nat} : readNat root expected limit p = .ok n ↔ Scalar.Denotes text n ∧ n ≤ limit := by
  obtain ⟨mark, anchor, hnode⟩ : ∃ mark anchor, (p.follow root).node = .scalar mark anchor none text .plain := by
    unfold plainText? at h
    split at h
    case h_1 mark anchor _ hnode =>
      cases h
      exact ⟨mark, anchor, (follow_node root p.node p.trail).trans hnode⟩
    case h_2 => cases h
  simp only [readNat, hnode, maybeNumber_none_iff.2, if_true, ← Scalar.unsigned?_iff]
  cases Scalar.unsigned? text with
  | none => exact iff_of_false (wrongKind_ne_ok _ _ _) (by simp)
  | some m =>
    simp only [Option.some.injEq]
    split
    case isTrue hle =>
      rw [Except.ok.injEq]
      exact ⟨fun hsame => ⟨hsame, hsame ▸ hle⟩, fun hsame => hsame.1⟩
    case isFalse hbeyond =>
      refine ⟨fun hread => ?_, fun hsame => absurd (hsame.1 ▸ hsame.2) hbeyond⟩
      split at hread
      · cases hread
      · exact absurd hread (wrongKind_ne_ok _ _ _)

/-- With defaults, the field holds the number, or the default where that is zero. -/
theorem get_set (x : NumberField) {n : Nat} (h : n ≤ x.limit) (f : Config) :
    x.get (x.set n f).withDefaults = if n = 0 then x.default else n := by
  by_cases hzero : n = 0
  · rw [hzero]
    cases x <;> rfl
  rw [if_neg hzero]
  cases x with
  | port =>
    have hnat : (UInt16.ofNat n).toNat = n := UInt16.toNat_ofNat_of_lt' (Nat.lt_succ_of_le h)
    have hset : UInt16.ofNat n ≠ 0 := fun hnone => hzero (by rw [← hnat, hnone]; rfl)
    exact (congrArg UInt16.toNat (if_neg hset)).trans hnat
  | readTimeout =>
    have hnat : (UInt64.ofNat n).toNat = n := UInt64.toNat_ofNat_of_lt' (Nat.lt_succ_of_le h)
    have hset : UInt64.ofNat n ≠ 0 := fun hnone => hzero (by rw [← hnat, hnone]; rfl)
    exact (congrArg UInt64.toNat (if_neg hset)).trans hnat
  | writeTimeout =>
    have hnat : (UInt64.ofNat n).toNat = n := UInt64.toNat_ofNat_of_lt' (Nat.lt_succ_of_le h)
    have hset : UInt64.ofNat n ≠ 0 := fun hnone => hzero (by rw [← hnat, hnone]; rfl)
    exact (congrArg UInt64.toNat (if_neg hset)).trans hnat

/-- A numeral does not start with a minus. -/
theorem head?_ne_minus {text : List Char} {n : Nat} (h : Scalar.Denotes text n) : text.head? ≠ some '-' := by
  have hmagnitude : ∀ {cs : List Char}, Scalar.Magnitude cs n → cs.head? ≠ some '-' := by
    intro cs hnumeral
    cases hnumeral with
    | decimal hdigits =>
      intro hhead
      exact absurd (hdigits.isDigit '-' (List.mem_of_mem_head? hhead)) (by decide)
    | hexadecimal => simp
    | octal => simp
    | binary => simp
  cases h with
  | bare hnumeral => exact hmagnitude hnumeral
  | plus => simp

/-- The other values of every document that is read are in order. -/
theorem otherwiseReads_of_parse {x : NumberField} {text number : List Char} {c : Config} (h : parse text = .ok c)
    (hgiven : IsGiven (Document.ofText text).root x number) : ∃ f, OtherwiseReads (Document.ofText text) x f := by
  obtain ⟨f, hread, -⟩ := ok_of_map h
  obtain ⟨hfault, hsingle, hnode⟩ := ofDocument_ok_iff.1 hread
  rw [← ofNodeTaking_number _ x] at hnode
  obtain ⟨p, -, -, htaking⟩ := ofNodeTaking_given hnode hgiven
  exact ⟨x.set 0 f, hfault, hsingle, htaking fun _ => .ok 0⟩

/-- A document whose other values are in order is read exactly when the integer field has
a numeral whose value fits, and then the field holds that value, or its default where
the value is zero. What starts with a minus is refused. -/
theorem parse_number {x : NumberField} {text number : List Char} {f : Config}
    (hother : OtherwiseReads (Document.ofText text) x f) (hgiven : IsGiven (Document.ofText text).root x number) :
    (∀ c, parse text = .ok c ↔ ∃ n, Scalar.Denotes number n ∧ n ≤ x.limit ∧ c = (x.set n f).withDefaults) ∧
      (∀ c n, parse text = .ok c → Scalar.Denotes number n → x.get c = if n = 0 then x.default else n) ∧
      (number.head? = some '-' → ∃ e, parse text = .error e) := by
  obtain ⟨p, htext, -, htaking⟩ := ofNodeTaking_given hother.fields hgiven
  have hroot := htaking (readNat (Document.ofText text).root x.expected x.limit)
  rw [ofNodeTaking_number] at hroot
  have hparse : ∀ c, parse text = .ok c ↔
      ∃ n, Scalar.Denotes number n ∧ n ≤ x.limit ∧ c = (x.set n f).withDefaults := by
    intro c
    constructor
    · intro hok
      obtain ⟨d, hd, rfl⟩ := ok_of_map hok
      obtain ⟨-, -, hd⟩ := ofDocument_ok_iff.1 hd
      rw [hroot] at hd
      obtain ⟨n, hn, rfl⟩ := ok_of_map hd
      obtain ⟨hdenotes, hfits⟩ := (readNat_given htext).1 hn
      exact ⟨n, hdenotes, hfits, rfl⟩
    · rintro ⟨n, hdenotes, hfits, rfl⟩
      rw [(readNat_given htext).2 ⟨hdenotes, hfits⟩] at hroot
      have hread : ofText text = .ok (x.set n f) := ofDocument_ok_iff.2 ⟨hother.fault, hother.single, hroot⟩
      rw [parse, hread]
      rfl
  refine ⟨hparse, fun c n hok hdenotes => ?_, fun hminus => ?_⟩
  · obtain ⟨m, hdenotes', hfits, rfl⟩ := (hparse c).1 hok
    obtain rfl : m = n :=
      Option.some.inj ((Scalar.unsigned?_iff.2 hdenotes').symm.trans (Scalar.unsigned?_iff.2 hdenotes))
    exact get_set x hfits f
  · cases hok : parse text with
    | error e => exact ⟨e, rfl⟩
    | ok c =>
      obtain ⟨n, hdenotes, -⟩ := (hparse c).1 hok
      exact absurd hminus (head?_ne_minus hdenotes)

/-- An integer in another radix that stands for two fields, in a section behind an anchor. -/
def sharedText : List Char := "server: &s\n  port: &n +0x1F90\n  read_timeout: *n\n".toList

theorem parse_number_shared :
    OtherwiseReads (Document.ofText sharedText) .port { unset with server.readTimeout := 8080 } ∧
      IsGiven (Document.ofText sharedText).root .port "+0x1F90".toList ∧
      ∃ c, parse sharedText = .ok c ∧ NumberField.port.get c = 8080 := by
  have hother : OtherwiseReads (Document.ofText sharedText) .port { unset with server.readTimeout := 8080 } :=
    ⟨by decide +kernel, by decide +kernel, ok_of_toOption (by decide +kernel)⟩
  have hgiven : IsGiven (Document.ofText sharedText).root .port "+0x1F90".toList := by decide +kernel
  have hdenotes : Scalar.Denotes "+0x1F90".toList 8080 := Scalar.unsigned?_iff.1 (by decide +kernel)
  obtain ⟨hparse, hget, -⟩ := parse_number hother hgiven
  have hok := (hparse _).2 ⟨8080, hdenotes, by decide, rfl⟩
  exact ⟨hother, hgiven, _, hok, hget _ 8080 hok hdenotes⟩

end AgentHost.Config
