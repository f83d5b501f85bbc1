import AgentHost.Api.Decode
import AgentHost.Api.Problem
import AgentHost.Proofs.Json.Records
import AgentHost.Proofs.Json.Written
/-!
# Problems and their answers

What is written of a problem is read back as that problem. An answer therefore
says in its body just what the problem says, but for a status that is none.
-/

namespace AgentHost.Api

open Json (Payload Value Reads)
open Json.Decode (Member Shape)

/-! ## Members with text -/

variable {σ : Type}

theorem reads_textField (name : String) (put : σ → String → σ) (value : σ) (v : Value) :
    Reads ((textField name put).read value) v (v.text?.map (put value)) := by
  intro fuel c rest h hrest
  have htext := Json.Decode.reads_text v h hrest
  show Json.bare (Json.Decode.text c >>= _) = _
  rw [Json.bare_bind _ (g := fun p => some (put value p.1, p.2)) fun _ _ => rfl, htext]
  cases v.text? <;> rfl

theorem reads_optionalField (name : String) (put : σ → Option String → σ) (value : σ) (v : Value) :
    Reads ((optionalField name put).read value) v (v.optionalText?.map (put value)) := by
  intro fuel c rest h hrest
  have htext := Json.Decode.reads_optionalText v h hrest
  show Json.bare (Json.Decode.optionalText c >>= _) = _
  rw [Json.bare_bind _ (g := fun p => some (put value p.1, p.2)) fun _ _ => rfl, htext]
  cases v.optionalText? <;> rfl

namespace Problem

/-! ## Reading back -/

/-- The problem with the value of a member. -/
def put (name : String) (p : Problem) (v : Value) : Option Problem :=
  match name with
  | "type" => v.text?.map fun s => { p with type := s }
  | "title" => v.text?.map fun s => { p with title := s }
  | "status" => v.word?.map fun n => { p with status := n }
  | "detail" => v.optionalText?.map fun s => { p with detail := s }
  | "instance" => v.optionalText?.map fun s => { p with resource := s }
  | _ => none

theorem shape_puts : shape.Puts put := by
  intro m hm value v
  simp only [shape, List.mem_cons, List.not_mem_nil, or_false] at hm
  rcases hm with rfl | rfl | rfl | rfl | rfl
  · exact reads_textField _ _ value v
  · exact reads_textField _ _ value v
  · intro fuel c rest h hrest
    have hword := Json.Decode.reads_word v h hrest
    show Json.bare (Json.Decode.word c >>= _) = _
    rw [Json.bare_bind _ (g := fun q => some ({ value with status := q.1 }, q.2)) fun _ _ => rfl, hword]
    show _ = (v.word?.map _).map _
    cases v.word? <;> rfl
  · exact reads_optionalField _ _ value v
  · exact reads_optionalField _ _ value v

/-- The member that a text is written as, if there is one. -/
def plainText (name : String) : Option String → List (List Char × Value)
  | some s => [(name.toList, .string s.toList)]
  | none => []

/-- The members that a problem is written as. -/
def members (p : Problem) : List (List Char × Value) :=
  [("type".toList, .string p.type.toList), ("title".toList, .string p.title.toList),
    ("status".toList, .number (Json.integerText p.status.toNat))]
    ++ plainText "detail" p.detail ++ plainText "instance" p.resource

theorem plain_toPayload (p : Problem) : p.toPayload.plain = .object p.members := by
  obtain ⟨type, title, status, detail, resource⟩ := p
  cases detail <;> cases resource <;> rfl

theorem isExact_toPayload (p : Problem) : p.toPayload.isExact = true := by
  cases hdetail : p.detail <;> cases hinstance : p.resource <;>
    simp [toPayload, textMember, optionalMember, hdetail, hinstance, Payload.isExact, Payload.exactFields]

theorem ofMembers_members (p : Problem) : shape.ofMembers put [] shape.start p.members = some p := by
  obtain ⟨type, title, status, detail, resource⟩ := p
  cases detail <;> cases resource <;>
    simp [members, plainText, Shape.ofMembers, Shape.member?, Shape.missing?, shape, textField, optionalField, put]

theorem encode_ok (p : Problem) : ∃ text, p.toPayload.encode = .ok text := by
  obtain ⟨type, title, status, detail, resource⟩ := p
  cases detail <;> cases resource <;> exact ⟨_, rfl⟩

theorem parse_encode (p : Problem) {text : List Char} (h : p.toPayload.encode = .ok text) :
    Value.parse text = some (.object p.members) := by
  rw [← plain_toPayload]
  exact Payload.parse_encode p.isExact_toPayload h

/-- What is written of a problem is read back as that problem. -/
theorem decode_encode (p : Problem) {text : List Char} (h : p.toPayload.encode = .ok text) : decode text = .ok p := by
  have hreads := Json.Decode.reads_record shape_puts p.members
  rw [ofMembers_members] at hreads
  exact ok_of_toOption (Json.Decode.whole_toOption hreads (p.parse_encode h))

theorem detail_mem_members (p : Problem) : "detail".toList ∈ p.members.map Prod.fst ↔ p.detail.isSome = true := by
  obtain ⟨type, title, status, detail, resource⟩ := p
  cases detail <;> cases resource <;> simp [members, plainText]

theorem instance_mem_members (p : Problem) :
    "instance".toList ∈ p.members.map Prod.fst ↔ p.resource.isSome = true := by
  obtain ⟨type, title, status, detail, resource⟩ := p
  cases detail <;> cases resource <;> simp [members, plainText]

/-! ## Answers -/

/-- The status that a problem is answered with. -/
theorem code_statusCode (p : Problem) :
    p.statusCode.code = (if 100 ≤ p.status ∧ p.status ≤ 999 then p.status else 500).toNat := by
  have hleast : (100 : UInt16) ≤ p.status ↔ 100 ≤ p.status.toNat := UInt16.le_iff_toNat_le
  have hgreatest : p.status ≤ (999 : UInt16) ↔ p.status.toNat ≤ 999 := UInt16.le_iff_toNat_le
  unfold statusCode Http.Status.ofNat?
  split
  case isTrue h => rw [if_pos ⟨hleast.2 h.1, hgreatest.2 h.2⟩]; rfl
  case isFalse h => rw [if_neg fun hrange => h ⟨hleast.1 hrange.1, hgreatest.1 hrange.2⟩]; rfl

end Problem

theorem Answer.json_ok {status : Http.Status} {payload : Payload} {text : List Char} (h : payload.encode = .ok text) :
    Answer.json status payload = ⟨Answer.jsonResponse status text, []⟩ := by
  rw [Answer.json, h]

/-- A problem is answered under its own status, or under 500 where that is none, and
the body is the problem with that very status. Nothing is logged, and what the
problem does not have is left out. -/
theorem Problem.answer_says_status (p : Problem) :
    let status : UInt16 := if 100 ≤ p.status ∧ p.status ≤ 999 then p.status else 500
    let answer := Answer.problem p
    answer.response.status.code = status.toNat ∧
      answer.response.headers = [("content-type", "application/json; charset=utf-8")] ∧
      answer.log = [] ∧
      Problem.decode answer.response.body.toList = .ok { p with status := status } ∧
      ∃ members, Value.parse answer.response.body.toList = some (.object members) ∧
        ("detail".toList ∈ members.map Prod.fst ↔ p.detail.isSome = true) ∧
        ("instance".toList ∈ members.map Prod.fst ↔ p.resource.isSome = true) := by
  intro status answer
  -- The problem that is written has the status of the answer already.
  have hcode : p.statusCode.code = status.toNat := p.code_statusCode
  obtain ⟨text, htext⟩ := encode_ok { p with status := status }
  have hanswer : answer = ⟨Answer.jsonResponse p.statusCode text, []⟩ := by
    show Answer.json p.statusCode _ = _
    rw [hcode, UInt16.ofNat_toNat]
    exact Answer.json_ok htext
  have hbody : answer.response.body.toList = text := by
    rw [hanswer]
    exact String.toList_ofList
  rw [hbody]
  refine ⟨?_, ?_, ?_, decode_encode _ htext, members { p with status := status }, parse_encode _ htext,
    detail_mem_members _, instance_mem_members _⟩
  · rw [hanswer]
    exact hcode
  · rw [hanswer]
    rfl
  · rw [hanswer]

end AgentHost.Api
