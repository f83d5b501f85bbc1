import AgentHost.Proofs.Api.RoundTrip
import AgentHost.Proofs.Json.Entries
/-!
# What is read over the wire

A problem, an agent, a list of agents or a version is read from an object just if
its members are as the layout of that record says, and then as the record that they
tell of. Members of other names may stand anywhere and hold anything.
-/

namespace AgentHost.Api

open Json (DecodeError Entry Layout Value)
open Json.Decode (Shape)

/-! ## Reading by a layout -/

/-- What is read are the objects whose members the layout accepts, each as the one
record that they tell of, and arrays of the values of the members in their order.
Texts whose members of known names are the same but for their order are read alike. -/
structure DecodesBy {σ : Type} (l : Layout σ) (decode : List Char → Except DecodeError σ) : Prop where
  accepted : ∀ text ms, Value.parse text = some (.object ms) → ((∃ x, decode text = .ok x) ↔ l.Accepts ms)
  told : ∀ text ms, Value.parse text = some (.object ms) → ∀ x, decode text = .ok x ↔ l.Told ms x
  alike : ∀ text text' ms ms', Value.parse text = some (.object ms) → Value.parse text' = some (.object ms') →
    (l.known ms).Perm (l.known ms') → ∀ x, decode text = .ok x ↔ decode text' = .ok x
  items : ∀ text vs, Value.parse text = some (.array vs) → ∀ x, decode text = .ok x ↔
    vs.length ≤ l.names.length ∧ l.Told ((l.names.map String.toList).zip vs) x

section

variable {σ : Type} {s : Shape σ} {put : String → σ → Value → Option σ} {l : Layout σ}

theorem whole_eq_ok_iff (hputs : s.Puts put) (h : l.Fits s put) {text : List Char} {v : Value}
    (hparse : Value.parse text = some v) (x : σ) :
    Json.Decode.whole (Json.Decode.record s) text = .ok x ↔
      ∃ ms, v.membersIn l.names = some ms ∧ l.Told ms x := by
  have hwhole := Json.Decode.whole_toOption (Json.Decode.reads_value hputs v) hparse
  rw [← h.ofValue_iff, ← hwhole]
  exact ⟨fun hok => by rw [hok]; rfl, ok_of_toOption⟩

theorem decodesBy_of_fits (hputs : s.Puts put) (h : l.Fits s put) :
    DecodesBy l (Json.Decode.whole (Json.Decode.record s)) := by
  have htold : ∀ text ms, Value.parse text = some (.object ms) → ∀ x,
      Json.Decode.whole (Json.Decode.record s) text = .ok x ↔ l.Told ms x := by
    intro text ms hparse x
    rw [whole_eq_ok_iff hputs h hparse]
    exact ⟨fun ⟨_, hmembers, hx⟩ => Option.some.inj hmembers ▸ hx, fun hx => ⟨ms, rfl, hx⟩⟩
  refine ⟨fun text ms hparse => ?_, htold, fun text text' ms ms' hparse hparse' hperm x => ?_,
    fun text vs hparse x => ?_⟩
  · rw [← h.exists_told_iff]
    exact exists_congr (htold text ms hparse)
  · rw [htold text ms hparse, htold text' ms' hparse']
    exact Layout.told_congr hperm x
  · rw [whole_eq_ok_iff hputs h hparse, Value.membersIn]
    split
    case isTrue hlength => simp only [Option.some_inj, exists_eq_left', hlength, true_and]
    case isFalse hlength => simp only [reduceCtorEq, false_and, exists_false, hlength]

end

/-! ## The records -/

namespace Problem

/-- The members of a problem. -/
def layout : Layout Problem where
  entries := [.text "type" type, .text "title" title, .word "status" status, .optionalText "detail" detail,
    .optionalText "instance" resource]
  distinct := by decide
  determined x y h := by
    iterate 5 rw [List.forall_mem_cons] at h
    obtain ⟨htype, htitle, hstatus, hdetail, hinstance, -⟩ := h
    obtain ⟨_, _, _, _, _⟩ := x
    obtain ⟨_, _, _, _, _⟩ := y
    exact (mk.injEq ..).mpr ⟨(Entry.text_isPart _ type).determined htype, (Entry.text_isPart _ title).determined htitle,
      (Entry.word_isPart _ status).determined hstatus, (Entry.optionalText_isPart _ detail).determined hdetail,
      (Entry.optionalText_isPart _ resource).determined hinstance⟩

theorem put_other : ∀ e ∈ layout.entries, ∀ e' ∈ layout.entries, e'.name ≠ e.name → ∀ v x y,
    put e.name x v = some y → ∀ o, e'.tells o y ↔ e'.tells o x := by
  intro e he e' he' hother v x y hput o
  simp only [layout, List.mem_cons, List.not_mem_nil, or_false] at he he'
  rcases he with rfl | rfl | rfl | rfl | rfl <;> obtain ⟨_, -, rfl⟩ := Option.map_eq_some_iff.1 hput <;>
    rcases he' with rfl | rfl | rfl | rfl | rfl <;> first | exact absurd rfl hother | exact Iff.rfl

theorem layout_fits : layout.Fits shape put := by
  refine Layout.fits_of_parts rfl ?_ put_other
  unfold layout
  iterate 5 rw [List.forall_mem_cons]
  refine ⟨?_, ?_, ?_, ?_, ?_, List.forall_mem_nil _⟩
  · exact ⟨_, _, _, type, fun p s => { p with type := s }, Entry.text_isPart _ _, rfl, fun _ _ => rfl, fun _ _ => rfl⟩
  · exact ⟨_, _, _, title, fun p s => { p with title := s }, Entry.text_isPart _ _, rfl, fun _ _ => rfl,
      fun _ _ => rfl⟩
  · exact ⟨_, _, _, status, fun p n => { p with status := n }, Entry.word_isPart _ _, rfl, fun _ _ => rfl,
      fun _ _ => rfl⟩
  · exact ⟨_, _, _, detail, fun p s => { p with detail := s }, Entry.optionalText_isPart _ _, rfl, fun _ _ => rfl,
      fun _ _ => rfl⟩
  · exact ⟨_, _, _, resource, fun p s => { p with resource := s }, Entry.optionalText_isPart _ _, rfl,
      fun _ _ => rfl, fun _ _ => rfl⟩

theorem decodesBy : DecodesBy layout decode := decodesBy_of_fits shape_puts layout_fits

end Problem

namespace Agent

/-- The members of an agent. -/
def layout : Layout Agent where
  entries := [.text "name" name, .optionalText "description" description, .optionalText "version" version]
  distinct := by decide
  determined x y h := by
    iterate 3 rw [List.forall_mem_cons] at h
    obtain ⟨hname, hdescription, hversion, -⟩ := h
    obtain ⟨_, _, _⟩ := x
    obtain ⟨_, _, _⟩ := y
    exact (mk.injEq ..).mpr ⟨(Entry.text_isPart _ name).determined hname,
      (Entry.optionalText_isPart _ description).determined hdescription,
      (Entry.optionalText_isPart _ version).determined hversion⟩

theorem put_other : ∀ e ∈ layout.entries, ∀ e' ∈ layout.entries, e'.name ≠ e.name → ∀ v x y,
    put e.name x v = some y → ∀ o, e'.tells o y ↔ e'.tells o x := by
  intro e he e' he' hother v x y hput o
  simp only [layout, List.mem_cons, List.not_mem_nil, or_false] at he he'
  rcases he with rfl | rfl | rfl <;> obtain ⟨_, -, rfl⟩ := Option.map_eq_some_iff.1 hput <;>
    rcases he' with rfl | rfl | rfl <;> first | exact absurd rfl hother | exact Iff.rfl

theorem layout_fits : layout.Fits shape put := by
  refine Layout.fits_of_parts rfl ?_ put_other
  unfold layout
  iterate 3 rw [List.forall_mem_cons]
  refine ⟨?_, ?_, ?_, List.forall_mem_nil _⟩
  · exact ⟨_, _, _, name, fun a s => { a with name := s }, Entry.text_isPart _ _, rfl, fun _ _ => rfl, fun _ _ => rfl⟩
  · exact ⟨_, _, _, description, fun a s => { a with description := s }, Entry.optionalText_isPart _ _, rfl,
      fun _ _ => rfl, fun _ _ => rfl⟩
  · exact ⟨_, _, _, version, fun a s => { a with version := s }, Entry.optionalText_isPart _ _, rfl,
      fun _ _ => rfl, fun _ _ => rfl⟩

theorem decodesBy : DecodesBy layout decode := decodesBy_of_fits shape_puts layout_fits

end Agent

namespace AgentList

/-- The members of a list of agents. -/
def layout : Layout AgentList where
  entries := [.records "agents" Agent.layout agents]
  distinct := by decide
  determined x y h := by
    rw [List.forall_mem_singleton] at h
    exact (mk.injEq ..).mpr ((Entry.records_isPart Agent.layout_fits _ agents).determined h)

theorem layout_fits : layout.Fits shape put := by
  refine Layout.fits_of_parts rfl ?_ ?_
  · unfold layout
    rw [List.forall_mem_singleton]
    exact ⟨_, _, _, agents, fun _ agents => ⟨agents⟩, Entry.records_isPart Agent.layout_fits _ _, rfl, fun _ _ => rfl,
      fun _ _ => rfl⟩
  · simp [layout]

theorem decodesBy : DecodesBy layout decode := decodesBy_of_fits shape_puts layout_fits

end AgentList

namespace VersionInfo

/-- The members of a version. -/
def layout : Layout VersionInfo where
  entries := [.text "version" version, .text "go" compiler]
  distinct := by decide
  determined x y h := by
    iterate 2 rw [List.forall_mem_cons] at h
    obtain ⟨hversion, hcompiler, -⟩ := h
    obtain ⟨_, _⟩ := x
    obtain ⟨_, _⟩ := y
    exact (mk.injEq ..).mpr ⟨(Entry.text_isPart _ version).determined hversion,
      (Entry.text_isPart _ compiler).determined hcompiler⟩

theorem put_other : ∀ e ∈ layout.entries, ∀ e' ∈ layout.entries, e'.name ≠ e.name → ∀ v x y,
    put e.name x v = some y → ∀ o, e'.tells o y ↔ e'.tells o x := by
  intro e he e' he' hother v x y hput o
  simp only [layout, List.mem_cons, List.not_mem_nil, or_false] at he he'
  rcases he with rfl | rfl <;> obtain ⟨_, -, rfl⟩ := Option.map_eq_some_iff.1 hput <;>
    rcases he' with rfl | rfl <;> first | exact absurd rfl hother | exact Iff.rfl

theorem layout_fits : layout.Fits shape put := by
  refine Layout.fits_of_parts rfl ?_ put_other
  unfold layout
  iterate 2 rw [List.forall_mem_cons]
  refine ⟨?_, ?_, List.forall_mem_nil _⟩
  · exact ⟨_, _, _, version, fun i s => { i with version := s }, Entry.text_isPart _ _, rfl, fun _ _ => rfl,
      fun _ _ => rfl⟩
  · exact ⟨_, _, _, compiler, fun i s => { i with compiler := s }, Entry.text_isPart _ _, rfl, fun _ _ => rfl,
      fun _ _ => rfl⟩

theorem decodesBy : DecodesBy layout decode := decodesBy_of_fits shape_puts layout_fits

end VersionInfo

/-- What is read over the wire is just what has the members of a problem, an agent, a
list of agents or a version. -/
theorem wire_decodesBy :
    DecodesBy Problem.layout Problem.decode ∧ DecodesBy Agent.layout Agent.decode ∧
      DecodesBy AgentList.layout AgentList.decode ∧ DecodesBy VersionInfo.layout VersionInfo.decode :=
  ⟨Problem.decodesBy, Agent.decodesBy, AgentList.decodesBy, VersionInfo.decodesBy⟩

/-- A problem with its members out of order, one under an escaped name, and others
between them. -/
def shuffledText : List Char :=
  ("\x7b\"x\":[1,\x7b\"title\":0\x7d],\"\\u0074itle\":\"t\",\n \"status\" : 404,\"detail\":null," ++
    "\"x\":-1e999,\"type\":\"u\"\x7d").toList

theorem wire_decodesBy_shuffled :
    Problem.decode shuffledText = .ok ⟨"u", "t", 404, none, none⟩ ∧
      ∃ ms, Value.parse shuffledText = some (.object ms) ∧ Problem.layout.Told ms ⟨"u", "t", 404, none, none⟩ := by
  have hdecode : Problem.decode shuffledText = .ok ⟨"u", "t", 404, none, none⟩ := ok_of_toOption (by decide +kernel)
  have hmember : ((Value.parse shuffledText).bind fun v => v.get? "title").isSome = true := by decide +kernel
  obtain ⟨title, htitle⟩ := Option.isSome_iff_exists.1 hmember
  obtain ⟨v, hparse, hin⟩ := Option.bind_eq_some_iff.1 htitle
  refine ⟨hdecode, ?_⟩
  cases v with
  | object ms => exact ⟨ms, hparse, (wire_decodesBy.1.told _ ms hparse _).1 hdecode⟩
  | _ => cases hin

end AgentHost.Api
