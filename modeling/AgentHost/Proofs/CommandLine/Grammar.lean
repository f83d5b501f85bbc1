import AgentHost.Proofs.CommandLine.Items
import AgentHost.Proofs.CommandLine.Ports
/-!
# Options in any order and spelling

A command line of options is read as if each option were taken by itself, in order
(`Reading.arguments_eq_run`), whichever way it is spelled. So it asks for what its
options ask for, or it is refused for a port that is none or an option that comes
twice.
-/

namespace AgentHost.CommandLine

open Text (Bytes)
open Text.Utf8 (ofString decode?_encode)

/-! ## Items one by one -/

namespace Reading

/-- Takes items one by one. -/
def takeAll (r : Reading) : List Item → Except Refusal Request
  | [] => .ok r.request
  | item :: items =>
    match r.take item.flag item.value with
    | (_, some refusal) => .error refusal
    | (r, none) => r.takeAll items

/-- Takes the option that waits, and then items one by one. -/
def run (r : Reading) (items : List Item) : Except Refusal Request :=
  match r.settle with
  | (_, some refusal) => .error refusal
  | (r, none) => r.takeAll items

theorem take_pending {r r' : Reading} {flag : Flag} {value : Option Bytes} (h : r.take flag value = (r', none)) :
    r'.pending = r.pending := by
  unfold take at h
  split at h
  · cases h
  split at h
  · cases h
  split at h
  · cases h
  simp only at h
  split at h
  case h_1 =>
    obtain ⟨rfl, -⟩ := Prod.mk.inj h
    rfl
  case h_2 => cases h

theorem settle_pending {r r' : Reading} (h : r.settle = (r', none)) : r'.pending = none := by
  unfold settle at h
  split at h
  case h_1 => exact take_pending h
  case h_2 hnone =>
    obtain ⟨rfl, -⟩ := Prod.mk.inj h
    exact hnone

theorem run_of_settled {r : Reading} (h : r.pending = none) (items : List Item) : r.run items = r.takeAll items := by
  simp only [run, settle, h]

/-- An option that waits with its value is taken first. -/
theorem run_waiting {r : Reading} (h : r.pending = none) (item : Item) {value : Bytes} (hvalue : item.value = some value)
    (items : List Item) : { r with pending := some ⟨item.flag, some value⟩ }.run items = r.takeAll (item :: items) := by
  obtain ⟨request, used, pending⟩ := r
  obtain rfl : pending = none := h
  simp only [run, settle, takeAll, hvalue]

theorem arguments_cons {arg : Bytes} (h : arg ≠ escape) (rest : List Bytes) (r : Reading) :
    r.arguments (arg :: rest) = match r.argument arg with
      | .ok r => r.arguments rest
      | .error refusal => .error refusal := by
  conv_lhs => unfold arguments
  exact if_neg h

/-- The arguments that take an option do so one by one. The induction is on the items,
each with its arguments; one of them waits while the next is looked at. -/
theorem arguments_eq_run {items : List Item} {words : List (List Bytes)}
    (h : List.Forall₂ (fun item args => Takes item.flag item.value args) items words) (r : Reading) :
    r.arguments words.flatten = r.run items := by
  induction h generalizing r with
  | nil => rfl
  | @cons item args items words htakes hmore ih =>
    generalize hvalue : item.value = value at htakes
    rw [List.flatten_cons, run]
    cases hsettled : r.settle with
    | mk settled refusal =>
      cases htakes with
      | once hescape hread =>
        rw [List.singleton_append, arguments_cons hescape, hread, settleAndTake, hsettled]
        cases refusal with
        | some refusal => rfl
        | none =>
          simp only [takeAll, hvalue]
          cases htaken : settled.take item.flag value with
          | mk taken refusal =>
            cases refusal with
            | some refusal => rfl
            | none =>
              have hpending : taken.pending = none := (take_pending htaken).trans (settle_pending hsettled)
              simp only [ih taken, run_of_settled hpending]
      | @twice front arg hfront hread hescape hgiven =>
        rw [List.cons_append, List.singleton_append, arguments_cons hfront, hread, await, hsettled]
        cases refusal with
        | some refusal => rfl
        | none =>
          simp only
          rw [arguments_cons hescape, hgiven]
          simp only [give]
          rw [ih, run_waiting (settle_pending hsettled) item hvalue]

end Reading

/-! ## What is asked for -/

/-- The request asks for what the items say and for nothing else. -/
structure Asks (items : List Item) (q : Request) : Prop where
  config : ∀ path, q.config = some path ↔ ∃ text, .config text ∈ items ∧ path = .ofString text
  port : ∀ port, q.port = some port ↔ ∃ number, .port number ∈ items ∧ IsPort number.toList port
  version : q.version = true ↔ .version ∈ items

/-- The value of the item is one: a path that is not empty, or the numeral of a port. -/
def Item.IsValid : Item → Prop
  | .config path => path ≠ ""
  | .port number => ∃ port, IsPort number.toList port
  | .version => True

theorem asks_nothing : Asks [] Request.nothing := by
  constructor <;> simp [Request.nothing]

theorem withValue_port (q : Request) (number : String) : q.withValue .port (ofString number) =
    match parsePort number.toList with
    | .ok port => .ok { q with port := some port }
    | .error problem => .error (.invalidNumber .port number.toList problem) := by
  have htext : Text.Utf8.decode? (ofString number) = some number.toList := decode?_encode _
  cases hread : parsePort number.toList <;> simp only [Request.withValue, htext, hread]

theorem withValue_config (q : Request) {path : String} (h : path ≠ "") :
    q.withValue .config (ofString path) = .ok { q with config := some (.ofString path) } := by
  simp only [Request.withValue]
  rw [if_neg (ofString_ne_nil h)]
  rfl

theorem not_mem_of_flag {done : List Item} {item other : Item} (hnew : item.flag ∉ done.map Item.flag)
    (hflag : other.flag = item.flag) : other ∉ done :=
  fun hold => hnew (hflag ▸ List.mem_map_of_mem hold)

/-- The value of an item is added to the request if it is one and is refused if not. -/
theorem Asks.withValue {done : List Item} {q : Request} (h : Asks done q) {item : Item}
    (hnew : item.flag ∉ done.map Item.flag) :
    (item.IsValid → ∃ q', q.withValue item.flag (item.value.getD []) = .ok q' ∧ Asks (done ++ [item]) q') ∧
      (¬ item.IsValid → ∃ refusal, q.withValue item.flag (item.value.getD []) = .error refusal) := by
  cases item with
  | config path =>
    have hothers : ∀ text, Item.config text ∉ done := fun text => not_mem_of_flag hnew rfl
    refine ⟨fun hvalid => ⟨_, withValue_config q hvalid, ?_⟩, fun hempty => ?_⟩
    · constructor
      · simp [hothers, eq_comm]
      · simp [h.port]
      · simp [h.version]
    · obtain rfl : path = "" := not_not.1 hempty
      exact ⟨_, rfl⟩
  | port number =>
    have hothers : ∀ text, Item.port text ∉ done := fun text => not_mem_of_flag hnew rfl
    have hadd : q.withValue (Item.port number).flag ((Item.port number).value.getD []) = _ := withValue_port q number
    rw [hadd]
    constructor
    · rintro ⟨port, hport⟩
      rw [parsePort_iff.2 hport]
      refine ⟨_, rfl, ?_⟩
      constructor
      · simp [h.config]
      · intro port'
        simp only [List.mem_append, hothers, false_or, List.mem_singleton, Item.port.injEq, exists_eq_left,
          Option.some.injEq]
        exact ⟨fun hsame => hsame ▸ hport, hport.unique⟩
      · simp [h.version]
    · intro hinvalid
      cases hread : parsePort number.toList with
      | ok port => exact absurd ⟨port, parsePort_iff.1 hread⟩ hinvalid
      | error problem => exact ⟨_, rfl⟩
  | version =>
    refine ⟨fun _ => ⟨_, rfl, ?_⟩, fun hinvalid => absurd trivial hinvalid⟩
    constructor
    · simp [h.config]
    · simp [h.port]
    · simp

namespace Reading

/-- The items are taken, none of them twice, and no option waits. -/
structure Holds (r : Reading) (done : List Item) : Prop where
  pending : r.pending = none
  used : r.used = done.map Item.flag
  asks : Asks done r.request

/-- Items have the values that their options take, and none is a question for help. -/
theorem take_item (r : Reading) (item : Item) : r.take item.flag item.value =
    if r.used.contains item.flag then ({ r with used := r.used.erase item.flag }, some (.repeated item.flag))
    else match r.request.withValue item.flag (item.value.getD []) with
      | .ok request => ({ r with request, used := r.used ++ [item.flag] }, none)
      | .error refusal => ({ r with used := r.used ++ [item.flag] }, some refusal) := by
  cases item <;> rfl

/-- A new item is taken if its value is one. -/
theorem Holds.take {r : Reading} {done : List Item} (h : r.Holds done) {item : Item}
    (hnew : item.flag ∉ done.map Item.flag) :
    (item.IsValid → ∃ r', r.take item.flag item.value = (r', none) ∧ r'.Holds (done ++ [item])) ∧
      (¬ item.IsValid → ∃ r' refusal, r.take item.flag item.value = (r', some refusal)) := by
  have hused : r.used.contains item.flag = false := by simpa [h.used] using hnew
  rw [take_item, hused]
  obtain ⟨hvalid, hinvalid⟩ := h.asks.withValue hnew
  constructor
  · intro hitem
    obtain ⟨q', hread, hasks⟩ := hvalid hitem
    rw [hread]
    exact ⟨_, rfl, h.pending, by simp [h.used], hasks⟩
  · intro hitem
    obtain ⟨refusal, hread⟩ := hinvalid hitem
    rw [hread]
    exact ⟨_, _, rfl⟩

theorem Holds.take_again {r : Reading} {done : List Item} (h : r.Holds done) {item : Item}
    (hold : item.flag ∈ done.map Item.flag) :
    ∃ r', r.take item.flag item.value = (r', some (.repeated item.flag)) := by
  have hused : r.used.contains item.flag = true := by simpa [h.used] using hold
  rw [take_item, hused]
  exact ⟨_, rfl⟩

/-- Items that are all taken have values and are different ones. -/
theorem Holds.takeAll_ok {r : Reading} {done items : List Item} (h : r.Holds done) (hdone : (done.map Item.flag).Nodup)
    {q : Request} (htaken : r.takeAll items = .ok q) :
    (∀ item ∈ items, item.IsValid) ∧ ((done ++ items).map Item.flag).Nodup ∧ Asks (done ++ items) q := by
  induction items generalizing r done with
  | nil =>
    cases htaken
    rw [List.append_nil]
    exact ⟨by simp, hdone, h.asks⟩
  | cons item items ih =>
    unfold takeAll at htaken
    by_cases hold : item.flag ∈ done.map Item.flag
    · obtain ⟨r', htake⟩ := h.take_again hold
      rw [htake] at htaken
      cases htaken
    · obtain ⟨hvalid, hinvalid⟩ := h.take hold
      by_cases hitem : item.IsValid
      · obtain ⟨r', htake, hholds⟩ := hvalid hitem
        rw [htake] at htaken
        have hnext : ((done ++ [item]).map Item.flag).Nodup := by
          rw [List.map_append, List.nodup_append]
          refine ⟨hdone, by simp, fun old hmem new hnew hsame => ?_⟩
          obtain rfl : new = item.flag := by simpa using hnew
          exact hold (hsame ▸ hmem)
        obtain ⟨hitems, hnodup, hasks⟩ := ih hholds hnext htaken
        rw [List.append_assoc, List.singleton_append] at hnodup hasks
        exact ⟨List.forall_mem_cons.2 ⟨hitem, hitems⟩, hnodup, hasks⟩
      · obtain ⟨r', refusal, htake⟩ := hinvalid hitem
        rw [htake] at htaken
        cases htaken

/-- Items with values are all taken, up to the first that is there twice. -/
theorem Holds.takeAll_valid {r : Reading} {done items : List Item} (h : r.Holds done)
    (hvalid : ∀ item ∈ items, item.IsValid) :
    (∃ q, r.takeAll items = .ok q) ∨
      ¬ ((done ++ items).map Item.flag).Nodup ∧ ∃ flag, r.takeAll items = .error (.repeated flag) := by
  induction items generalizing r done with
  | nil => exact .inl ⟨_, rfl⟩
  | cons item items ih =>
    unfold takeAll
    by_cases hold : item.flag ∈ done.map Item.flag
    · obtain ⟨r', htake⟩ := h.take_again hold
      rw [htake]
      refine .inr ⟨fun hnodup => ?_, _, rfl⟩
      rw [List.map_append, List.nodup_append] at hnodup
      exact hnodup.2.2 _ hold _ List.mem_cons_self rfl
    · obtain ⟨r', htake, hholds⟩ := (h.take hold).1 (hvalid item List.mem_cons_self)
      have hnext := ih hholds fun other hother => hvalid other (List.mem_cons_of_mem _ hother)
      rw [List.append_assoc, List.singleton_append] at hnext
      rw [htake]
      exact hnext

end Reading

theorem holds_start : Reading.start.Holds [] := ⟨rfl, rfl, asks_nothing⟩

/-- A spelled command line is read item by item. -/
theorem parse_eq_takeAll {items : List Item} {words : List (List String)} (h : List.Forall₂ Item.Spells items words)
    (program : Bytes) :
    parse (normalize (program :: words.flatten.map ofString)) = Reading.start.takeAll items := by
  have htakes : List.Forall₂ (fun item args => Reading.Takes item.flag item.value args) items
      (words.map fun texts => (texts.map ofString).map normalizeOne) :=
    List.forall₂_map_right_iff.2 (h.imp fun _ _ hspells => hspells.takes)
  have hargs : (words.flatten.map ofString).map normalizeOne =
      (words.map fun texts => (texts.map ofString).map normalizeOne).flatten := by
    simp only [List.map_flatten, List.map_map, Function.comp_def]
  have hescape : escape ∉ words.flatten.map ofString := by
    intro hmem
    have hnormal : escape ∈ (words.flatten.map ofString).map normalizeOne :=
      List.mem_map.2 ⟨escape, hmem, (normalizeOne_eq_escape_iff escape).2 rfl⟩
    rw [hargs, List.mem_flatten] at hnormal
    obtain ⟨args, hword, hin⟩ := hnormal
    exact Reading.ne_escape_of_takes htakes args hword escape hin rfl
  rw [parse, normalize, List.tail_cons, normalizeOptions_map hescape, hargs, Reading.arguments_eq_run htakes,
    Reading.run_of_settled rfl]

/-- A path that is spelled is not empty. -/
theorem Item.Spells.config_ne_empty {path : String} {words : List String} (h : (Item.config path).Spells words) :
    path ≠ "" := by
  cases h with
  | pathNext _ hpath => exact hpath
  | pathJoined _ hpath => exact hpath

theorem isValid_iff_isPort {items : List Item} {words : List (List String)} (h : List.Forall₂ Item.Spells items words) :
    (∀ item ∈ items, item.IsValid) ↔ ∀ number, Item.port number ∈ items → ∃ port, IsPort number.toList port := by
  constructor
  · intro hvalid number hmem
    exact hvalid _ hmem
  · intro hports item hmem
    cases item with
    | config path =>
      have hpaths : ∀ item ∈ items, ∀ path, item = .config path → path ≠ "" :=
        ((List.forall₂_and_left _ _).1 (h.imp fun item words hspells => ⟨fun path hitem =>
          (hitem ▸ hspells : (Item.config path).Spells words).config_ne_empty, hspells⟩)).1
      exact hpaths _ hmem path rfl
    | port number => exact hports number hmem
    | version => trivial

/-- Options may be spelled in any way and stand in any order. If no two of them are the
same, they are accepted exactly when every port is the numeral of one, and then they
are what is asked for. Ports and paths that are fine but stand there twice are refused. -/
theorem parse_spelled {items : List Item} {words : List (List String)} (h : List.Forall₂ Item.Spells items words)
    (program : Bytes) :
    let answer := parse (normalize (program :: words.flatten.map ofString))
    let arePorts := ∀ number, Item.port number ∈ items → ∃ port, IsPort number.toList port
    ((items.map Item.flag).Nodup →
      ((∃ q, answer = .ok q) ↔ arePorts) ∧ ∀ q, answer = .ok q → Asks items q) ∧
    (arePorts → ¬ (items.map Item.flag).Nodup → ∃ flag, answer = .error (.repeated flag)) := by
  intro answer arePorts
  have hanswer : answer = Reading.start.takeAll items := parse_eq_takeAll h program
  have hports : (∀ item ∈ items, item.IsValid) ↔ arePorts := isValid_iff_isPort h
  rw [hanswer, ← hports]
  have hok : ∀ q, Reading.start.takeAll items = .ok q →
      (∀ item ∈ items, item.IsValid) ∧ (items.map Item.flag).Nodup ∧ Asks items q :=
    fun q htaken => holds_start.takeAll_ok List.nodup_nil htaken
  constructor
  · intro hnodup
    refine ⟨⟨?_, fun hvalid => ?_⟩, fun q hq => (hok q hq).2.2⟩
    · rintro ⟨q, hq⟩
      exact (hok q hq).1
    · exact (holds_start.takeAll_valid hvalid).resolve_right fun htwice => htwice.1 hnodup
  · intro hvalid htwice
    rcases holds_start.takeAll_valid hvalid with ⟨q, hq⟩ | ⟨-, hrefused⟩
    · exact absurd (hok q hq).2.1 htwice
    · exact hrefused

/-- A port behind its letter, a path that looks like options, and one that stands there twice. -/
theorem parse_spelled_mixed :
    (∃ q, parse (normalize (["agnx", "-p+0080", "-config=\u00e4=-V", "-version"].map ofString)) = .ok q ∧
      q.port = some 80 ∧ q.config = some (.ofString "\u00e4=-V") ∧ q.version = true) ∧
    ∃ flag, parse (normalize (["agnx", "-port=1", "-c", "port", "-p", "2"].map ofString)) = .error (.repeated flag) := by
  constructor
  · have hconfig : (Item.config "\u00e4=-V").Spells ["-config=" ++ "\u00e4=-V"] :=
      .pathJoined (by decide) (by decide)
    have hspells : List.Forall₂ Item.Spells [.port "+0080", .config "\u00e4=-V", .version]
        [["-p+0080"], ["-config=\u00e4=-V"], ["-version"]] :=
      .cons (.portAttached (c := '+') rfl (.inr rfl)) (.cons hconfig (.cons (.version (by decide)) .nil))
    have heighty : IsPort "+0080".toList 80 := parsePort_iff.1 rfl
    have hports : ∀ number, Item.port number ∈ [.port "+0080", .config "\u00e4=-V", .version] →
        ∃ port, IsPort number.toList port := by
      intro number hmem
      obtain rfl : number = "+0080" := by simpa using hmem
      exact ⟨80, heighty⟩
    obtain ⟨hdifferent, -⟩ := parse_spelled hspells (ofString "agnx")
    obtain ⟨haccepted, hasks⟩ := hdifferent (by decide)
    obtain ⟨q, hq⟩ := haccepted.2 hports
    have hall := hasks q hq
    exact ⟨q, hq, (hall.port 80).2 ⟨_, by decide, heighty⟩, (hall.config _).2 ⟨_, by decide, rfl⟩,
      hall.version.2 (by decide)⟩
  · have hport : (Item.port "1").Spells ["-port=" ++ "1"] := .portJoined (by decide)
    have hspells : List.Forall₂ Item.Spells [.port "1", .config "port", .port "2"]
        [["-port=1"], ["-c", "port"], ["-p", "2"]] :=
      .cons hport (.cons (.pathNext (by decide) (by decide) (by decide))
        (.cons (.portNext (by decide) (by decide)) .nil))
    refine (parse_spelled hspells (ofString "agnx")).2 (fun number hmem => ?_) (by decide)
    rcases (by simpa using hmem : number = "1" ∨ number = "2") with rfl | rfl
    · exact ⟨1, parsePort_iff.1 rfl⟩
    · exact ⟨2, parsePort_iff.1 rfl⟩

end AgentHost.CommandLine
