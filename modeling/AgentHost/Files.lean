import AgentHost.IoError
import AgentHost.Path
/-!
# Files

A tree of directories, files and links, and the directory in it that relative
paths start from. `Files.read` finds the file that a path names, following links,
and answers its bytes or why there are none.
-/

namespace AgentHost

open Text (Bytes)

/-- A directory with its entries, a file, or a link to a path. -/
inductive FileTree where
  | file (content : Bytes)
  | directory (entries : List (Bytes × FileTree))
  | link (target : Bytes)

/-- A tree of files and the names from its root to the current directory. -/
structure Files where
  root : FileTree
  current : List Bytes

namespace FileTree

/-- The entry of that name in a directory. -/
def entry? : FileTree → Bytes → Option FileTree
  | .directory entries, name => entries.lookup name
  | _, _ => none

/-- What stands at the end of a list of names. -/
def find? (t : FileTree) : List Bytes → Option FileTree
  | [] => some t
  | name :: rest => (t.entry? name).bind (·.find? rest)

/-- A tree of one file or directory below some names. -/
def nested (t : FileTree) : List Bytes → FileTree
  | [] => t
  | name :: rest => .directory [(name, t.nested rest)]

mutual

/-- Puts a tree at the end of a list of names, making directories on the way. -/
def insert (new : FileTree) : FileTree → List Bytes → FileTree
  | _, [] => new
  | .directory entries, name :: rest => .directory (insertEntry new name rest entries)
  | _, names => new.nested names

/-- Puts a tree below an entry of a directory. -/
def insertEntry (new : FileTree) (name : Bytes) (rest : List Bytes) :
    List (Bytes × FileTree) → List (Bytes × FileTree)
  | [] => [(name, new.nested rest)]
  | (other, tree) :: more =>
    if other = name then (name, insert new tree rest) :: more
    else (other, tree) :: insertEntry new name rest more

end

end FileTree

namespace Files

/-- The bytes a path may have, and those a name in it may have. -/
def longestPath : Nat := 4095

/-- The bytes a name may have. -/
def longestName : Nat := 255

/-- The links that may be followed on one way. -/
def mostLinks : Nat := 40

/-- The parts of a path, the empty ones left out. Where the path ends in a slash
a `.` stands for the directory that has to be there. -/
def parts (bytes : Bytes) : List Bytes :=
  let names := (Path.cut bytes).filter (· ≠ [])
  if bytes.getLast? = some Path.slash then names ++ [[Path.dot]] else names

/-- Where a path starts. -/
def origin (here : List Bytes) (bytes : Bytes) : List Bytes :=
  if bytes.head? = some Path.slash then [] else here

/-- Walks along the parts of a path from the directory `here`. `links` counts the
links that may still be followed. -/
def walk (files : Files) : Nat → Nat → List Bytes → List Bytes → Except IoError FileTree
  | 0, _, _, _ => .error .tooManyLinks
  | fuel + 1, links, here, todo =>
    match files.root.find? here with
    | none => .error .notFound
    | some (.file content) =>
      if todo.isEmpty then .ok (.file content) else .error .notADirectory
    | some (.link target) =>
      match links with
      | 0 => .error .tooManyLinks
      | links + 1 =>
        walk files fuel links (origin here.dropLast target) (parts target ++ todo)
    | some (.directory entries) =>
      match todo with
      | [] => .ok (.directory entries)
      | name :: rest =>
        if name = [Path.dot] then walk files fuel links here rest
        else if name = [Path.dot, Path.dot] then walk files fuel links here.dropLast rest
        else if longestName < name.length then .error .nameTooLong
        else walk files fuel links (here ++ [name]) rest

/-- The bytes of the file that a path names. -/
def read (files : Files) (path : Path) : Except IoError Bytes :=
  if path.bytes.contains 0 then .error .zeroByte
  else if path.bytes = [] then .error .notFound
  else if longestPath < path.bytes.length then .error .nameTooLong
  else
    let fuel := 2 * (mostLinks + 2) * (longestPath + 2)
    match walk files fuel mostLinks (origin files.current path.bytes) (parts path.bytes) with
    | .error e => .error e
    | .ok (.file content) => .ok content
    | .ok _ => .error .isADirectory

/-- The text of a file with these bytes. -/
def text (bytes : Bytes) : Except IoError (List Char) :=
  match Text.Utf8.decode? bytes with
  | some text => .ok text
  | none => .error .notText

end Files

end AgentHost
