import AgentHost.Json.Payload
/-!
# Writing into a buffer

A writer puts the pieces of a payload into a buffer one after the other. Where it
comes to a piece that cannot be written it stops, and what was written before is
in the buffer still. `Payload.emit` is this writer: `Payload.encode` is what it
writes, if it comes to the end.
-/

namespace AgentHost.Json

/-- What is in the buffer, and what the writer stopped at. -/
structure Emitted where
  text : List Char
  fault : Option EncodeError
  deriving DecidableEq

namespace Emitted

/-- A piece that is there as a whole. -/
def whole (text : List Char) : Emitted := ⟨text, none⟩

/-- A piece that is written at once or not at all. -/
def piece : Except EncodeError (List Char) → Emitted
  | .ok text => whole text
  | .error e => ⟨[], some e⟩

/-- Goes on writing, unless the writer has stopped. -/
def andThen (first second : Emitted) : Emitted :=
  match first.fault with
  | some _ => first
  | none => ⟨first.text ++ second.text, second.fault⟩

/-- The writer comes to the end of a text, or stops where there is none. -/
def Writes (w : Emitted) : Except EncodeError (List Char) → Prop
  | .ok body => w = whole body
  | .error e => w.fault = some e

theorem writes_piece (x : Except EncodeError (List Char)) : Writes (piece x) x := by
  cases x <;> rfl

/-- One text and then another are written behind each other, unless one of them is missing. -/
theorem Writes.andThen {v w : Emitted} {x y : Except EncodeError (List Char)} (hv : Writes v x) (hw : Writes w y) :
    Writes (v.andThen w) (x >>= fun a => y >>= fun b => .ok (a ++ b)) := by
  cases x with
  | error e =>
    have hfault : v.fault = some e := hv
    show (v.andThen w).fault = some e
    rw [Emitted.andThen, hfault]
    exact hfault
  | ok a =>
    obtain rfl : v = whole a := hv
    cases y with
    | error e => exact hw
    | ok b =>
      obtain rfl : w = whole b := hw
      rfl

end Emitted

namespace Payload

open Emitted

/-- What stands in front of an item. -/
def comma (first : Bool) : List Char := if first then [] else [',']

mutual

/-- Writes a payload into a buffer. -/
def emit : Payload → Emitted
  | .null => whole "null".toList
  | .bool b => whole (toString b).toList
  | .integer n => whole (integerText n)
  | .real x => whole (if x.isFinite then x.text else "null".toList)
  | .text s => whole (quote s.toList)
  | .bytes bs => whole ('[' :: separated (bs.map fun b => integerText b.toNat) ++ [']'])
  | .wrapped inner => inner.emit
  | .list items => (whole ['[']).andThen ((emitItems true items).andThen (whole [']']))
  | .map entries => (whole ['\x7b']).andThen ((emitEntries true entries).andThen (whole ['\x7d']))
  | .record fields => (whole ['\x7b']).andThen ((emitFields true fields).andThen (whole ['\x7d']))
  | .failing reason => ⟨[], some (.failed reason)⟩

/-- Writes items into a buffer. -/
def emitItems (first : Bool) : List Payload → Emitted
  | [] => whole []
  | p :: rest => (whole (comma first)).andThen (p.emit.andThen (emitItems false rest))

/-- Writes entries into a buffer. -/
def emitEntries (first : Bool) : List (Payload × Payload) → Emitted
  | [] => whole []
  | (key, value) :: rest =>
    (whole (comma first)).andThen
      (((piece key.encodeKey).andThen ((whole [':']).andThen value.emit)).andThen (emitEntries false rest))

/-- Writes fields into a buffer. -/
def emitFields (first : Bool) : List (String × Payload) → Emitted
  | [] => whole []
  | (name, value) :: rest =>
    (whole (comma first)).andThen
      (((whole (quote name.toList)).andThen ((whole [':']).andThen value.emit)).andThen (emitFields false rest))

end

/-! ## Parts with commas -/

/-- Parts with commas between them, the first of which has one in front if something stands before it. -/
def joined (first : Bool) (parts : List (List Char)) : List Char :=
  if first then separated parts else parts.flatMap (',' :: ·)

theorem separated_cons (part : List Char) (parts : List (List Char)) :
    separated (part :: parts) = part ++ joined false parts := by
  induction parts generalizing part with
  | nil => simp [separated, joined]
  | cons next parts ih =>
    rw [separated, ih next]
    · simp [joined]
    · nofun

theorem joined_cons (first : Bool) (part : List Char) (parts : List (List Char)) :
    joined first (part :: parts) = comma first ++ (part ++ joined false parts) := by
  cases first with
  | true => exact separated_cons part parts
  | false => simp [joined, comma]

/-- A part and the parts behind it. -/
theorem writes_part {v w : Emitted} {x : Except EncodeError (List Char)} {y : Except EncodeError (List (List Char))}
    (first : Bool) (hv : Writes v x) (hw : Writes w (y.map (joined false))) :
    Writes ((whole (comma first)).andThen (v.andThen w))
      ((x >>= fun part => y >>= fun parts => .ok (part :: parts)).map (joined first)) := by
  have hcomma : Writes (whole (comma first)) (.ok (comma first)) := rfl
  have h := hcomma.andThen (hv.andThen hw)
  cases x with
  | error e => exact h
  | ok part =>
    cases y with
    | error e => exact h
    | ok parts =>
      show Writes _ (.ok (joined first (part :: parts)))
      rw [joined_cons]
      exact h

/-- A name and its value. -/
theorem writes_member {v w : Emitted} {x y : Except EncodeError (List Char)} (hv : Writes v x) (hw : Writes w y) :
    Writes (v.andThen ((whole [':']).andThen w))
      (x >>= fun name => y >>= fun part => .ok (name ++ ':' :: part)) := by
  have hcolon : Writes (whole [':']) (.ok [':']) := rfl
  have h := hv.andThen (hcolon.andThen hw)
  cases x with
  | error e => exact h
  | ok name => cases y <;> exact h

/-- All the parts between brackets. -/
theorem writes_enclosed {w : Emitted} {y : Except EncodeError (List (List Char))} (opening closing : Char)
    (h : Writes w (y.map (joined true))) :
    Writes ((whole [opening]).andThen (w.andThen (whole [closing])))
      (y.map fun parts => opening :: separated parts ++ [closing]) := by
  have hopening : Writes (whole [opening]) (.ok [opening]) := rfl
  have hclosing : Writes (whole [closing]) (.ok [closing]) := rfl
  have hall := hopening.andThen (h.andThen hclosing)
  cases y <;> exact hall

/-! ## Payloads -/

mutual

/-- The writer writes what a payload is written as, or stops where that stops. -/
theorem writes_emit : (p : Payload) → Writes p.emit p.encode
  | .null | .bool _ | .integer _ | .real _ | .text _ | .bytes _ | .failing _ => by
    rw [emit, encode]
    rfl
  | .wrapped inner => by
    rw [emit, encode]
    exact writes_emit inner
  | .list items => by
    rw [emit, encode]
    exact writes_enclosed '[' ']' (writes_emitItems true items)
  | .map entries => by
    rw [emit, encode]
    exact writes_enclosed _ _ (writes_emitEntries true entries)
  | .record fields => by
    rw [emit, encode]
    exact writes_enclosed _ _ (writes_emitFields true fields)

theorem writes_emitItems (first : Bool) : (items : List Payload) →
    Writes (emitItems first items) ((encodeItems items).map (joined first))
  | [] => by cases first <;> rfl
  | p :: rest => by
    rw [emitItems, encodeItems]
    exact writes_part first (writes_emit p) (writes_emitItems false rest)

theorem writes_emitEntries (first : Bool) : (entries : List (Payload × Payload)) →
    Writes (emitEntries first entries) ((encodeEntries entries).map (joined first))
  | [] => by cases first <;> rfl
  | (key, value) :: rest => by
    have hmember := writes_member (writes_piece key.encodeKey) (writes_emit value)
    have h := writes_part first hmember (writes_emitEntries false rest)
    rw [emitEntries, encodeEntries]
    cases hkey : key.encodeKey with
    | error e => rwa [hkey] at h
    | ok name => cases hvalue : value.encode <;> rwa [hkey, hvalue] at h

theorem writes_emitFields (first : Bool) : (fields : List (String × Payload)) →
    Writes (emitFields first fields) ((encodeFields fields).map (joined first))
  | [] => by cases first <;> rfl
  | (name, value) :: rest => by
    have hname : Writes (whole (quote name.toList)) (.ok (quote name.toList)) := rfl
    have h := writes_part first (writes_member hname (writes_emit value)) (writes_emitFields false rest)
    rw [emitFields, encodeFields]
    cases hvalue : value.encode <;> rwa [hvalue] at h

end

end Payload

end AgentHost.Json
