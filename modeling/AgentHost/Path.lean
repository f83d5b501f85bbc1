import AgentHost.Text.Utf8
/-!
# Paths

A path is a string of bytes. What it names is told by its components: a path that
starts with `/` starts at the root, repeated slashes and inner `.` do not count,
and `..` is a component of its own. Two paths that have the same components are
the same path.
-/

namespace AgentHost

open Text (Bytes)

/-- A path as it is written. -/
structure Path where
  bytes : Bytes
  deriving DecidableEq, Repr, Inhabited

namespace Path

/-- The byte between the parts of a path. -/
def slash : UInt8 := 0x2F

/-- The byte of `.`. -/
def dot : UInt8 := 0x2E

/-- The path that a text spells. -/
def ofString (s : String) : Path := ⟨Text.Utf8.ofString s⟩

/-- The path as text, with U+FFFD for what is not. -/
def lossy (p : Path) : String := Text.Utf8.lossy p.bytes

/-- The path has no bytes. -/
def isEmpty (p : Path) : Bool := p.bytes.isEmpty

/-- A step on the way that a path describes. -/
inductive Component where
  | root
  | current
  | parent
  | name (bytes : Bytes)
  deriving DecidableEq, Repr

/-- Cuts a byte string at its slashes. -/
def cut : Bytes → List Bytes
  | [] => [[]]
  | b :: rest =>
    if b = slash then [] :: cut rest
    else match cut rest with
      | first :: more => (b :: first) :: more
      | [] => [[b]]

/-- The component of a part between slashes. An empty part and `.` have none. -/
def component? (part : Bytes) : Option Component :=
  if part = [] ∨ part = [dot] then none
  else if part = [dot, dot] then some .parent
  else some (.name part)

/-- The components of a path. A `.` counts only as the start of a relative path. -/
def components (p : Path) : List Component :=
  let parts := cut p.bytes
  let first : List Component :=
    if p.bytes.head? = some slash then [.root]
    else if parts.head? = some [dot] then [.current]
    else []
  first ++ parts.filterMap component?

/-- The paths have the same components. -/
def same (p q : Path) : Bool := p.components == q.components

/-- The path of a name inside the directory `p`. -/
def join (p : Path) (name : Bytes) : Path :=
  if p.bytes = [] then ⟨name⟩
  else if p.bytes.getLast? = some slash then ⟨p.bytes ++ name⟩
  else ⟨p.bytes ++ slash :: name⟩

/-- The last component of a path, if it is a name. -/
def fileName? (p : Path) : Option Bytes :=
  match p.components.getLast? with
  | some (.name bytes) => some bytes
  | _ => none

end Path

end AgentHost
