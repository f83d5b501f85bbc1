import AgentHost.Json.Payload
/-!
# What is wrong with a payload

`Payload.faults` looks through a whole payload, however deep, and lists what keeps
it from being written, in the order of its text. Writing stops at the first of
them, and a payload without any is written to its end.
-/

namespace AgentHost.Json

namespace Payload

/-- What keeps a payload from being the key of a map. -/
def keyFault? : Payload → Option EncodeError
  | .text _ | .bool _ | .integer _ => none
  | .real x => if x.isFinite then none else some .keyNotFinite
  | .wrapped inner => inner.keyFault?
  | .failing reason => some (.failed reason)
  | .null | .bytes _ | .list _ | .map _ | .record _ => some .keyNotText

mutual

/-- What keeps a payload from being written. -/
def faults : Payload → List EncodeError
  | .failing reason => [.failed reason]
  | .wrapped inner => inner.faults
  | .list items => faultsOfItems items
  | .map entries => faultsOfEntries entries
  | .record fields => faultsOfFields fields
  | .null | .bool _ | .integer _ | .real _ | .text _ | .bytes _ => []

/-- What keeps the items of a list from being written. -/
def faultsOfItems : List Payload → List EncodeError
  | [] => []
  | p :: rest => p.faults ++ faultsOfItems rest

/-- What keeps the entries of a map from being written. -/
def faultsOfEntries : List (Payload × Payload) → List EncodeError
  | [] => []
  | (key, value) :: rest => key.keyFault?.toList ++ (value.faults ++ faultsOfEntries rest)

/-- What keeps the fields of a record from being written. -/
def faultsOfFields : List (String × Payload) → List EncodeError
  | [] => []
  | (_, value) :: rest => value.faults ++ faultsOfFields rest

end

/-! ## The first fault -/

variable {α β : Type}

/-- A computation fails with the first of some faults, and succeeds if there is none. -/
def Blames (faults : List EncodeError) : Except EncodeError α → Prop
  | .ok _ => faults = []
  | .error e => faults.head? = some e

theorem Blames.map {faults : List EncodeError} {x : Except EncodeError α} (h : Blames faults x) (f : α → β) :
    Blames faults (x.map f) := by
  cases x with
  | error e => exact h
  | ok a => exact h

/-- Of two steps the faults of the first come first. -/
theorem Blames.bind {first second : List EncodeError} {x : Except EncodeError α} {f : α → Except EncodeError β}
    (hfirst : Blames first x) (hsecond : ∀ a, Blames second (f a)) : Blames (first ++ second) (x >>= f) := by
  cases x with
  | error e =>
    have hhead : first.head? = some e := hfirst
    show (first ++ second).head? = some e
    rw [List.head?_append, hhead]
    rfl
  | ok a =>
    have hnone : first = [] := hfirst
    rw [hnone]
    exact hsecond a

theorem blames_encodeKey (key : Payload) : Blames key.keyFault?.toList key.encodeKey := by
  induction key using encodeKey.induct with
  | case4 x hfinite =>
    rw [keyFault?, encodeKey, if_pos hfinite, if_pos hfinite]
    rfl
  | case5 x hfinite =>
    rw [keyFault?, encodeKey, if_neg hfinite, if_neg hfinite]
    rfl
  | case6 inner ih =>
    rw [keyFault?, encodeKey]
    exact ih
  | _ => rfl

mutual

/-- A payload is written to its end, or up to its first fault. -/
theorem blames_encode : (p : Payload) → Blames p.faults p.encode
  | .null | .bool _ | .integer _ | .real _ | .text _ | .bytes _ | .failing _ => by
    rw [faults, encode]
    rfl
  | .wrapped inner => by
    rw [faults, encode]
    exact blames_encode inner
  | .list items => by
    rw [faults, encode]
    exact (blames_encodeItems items).map _
  | .map entries => by
    rw [faults, encode]
    exact (blames_encodeEntries entries).map _
  | .record fields => by
    rw [faults, encode]
    exact (blames_encodeFields fields).map _

theorem blames_encodeItems : (items : List Payload) → Blames (faultsOfItems items) (encodeItems items)
  | [] => rfl
  | p :: rest => by
    rw [faultsOfItems, encodeItems, ← List.append_nil (faultsOfItems rest)]
    exact (blames_encode p).bind fun _ => (blames_encodeItems rest).bind fun _ => rfl

theorem blames_encodeEntries : (entries : List (Payload × Payload)) →
    Blames (faultsOfEntries entries) (encodeEntries entries)
  | [] => rfl
  | (key, value) :: rest => by
    rw [faultsOfEntries, encodeEntries, ← List.append_nil (faultsOfEntries rest)]
    exact (blames_encodeKey key).bind fun _ => (blames_encode value).bind fun _ =>
      (blames_encodeEntries rest).bind fun _ => rfl

theorem blames_encodeFields : (fields : List (String × Payload)) →
    Blames (faultsOfFields fields) (encodeFields fields)
  | [] => rfl
  | (_, value) :: rest => by
    rw [faultsOfFields, encodeFields, ← List.append_nil (faultsOfFields rest)]
    exact (blames_encode value).bind fun _ => (blames_encodeFields rest).bind fun _ => rfl

end

end Payload

end AgentHost.Json
