/-!
# Values set out for a reader

An `Outline` is a value as a reader sees it: a word, or a name with fields in
braces. `Outline.line` sets it out on one line, `Outline.block` with a line for
every field. An outline that keeps some fields to itself ends in two dots.
-/

namespace AgentHost.Text

/-- A value as a reader sees it. -/
inductive Outline where
  | word (text : String)
  | fields (name : String) (members : List (String × Outline)) (hidesSome : Bool)

namespace Outline

mutual

/-- The outline on one line. -/
def line : Outline → String
  | .word text => text
  | .fields name members hidesSome =>
    let parts := memberLines members ++ if hidesSome then [".."] else []
    if parts.isEmpty then name
    else name ++ " \x7b " ++ ", ".intercalate parts ++ " \x7d"

/-- Each field with its value. -/
def memberLines : List (String × Outline) → List String
  | [] => []
  | (name, value) :: rest => (name ++ ": " ++ value.line) :: memberLines rest

end

mutual

/-- The outline with a line for every field, behind `indent` levels. -/
def block (indent : Nat) : Outline → String
  | .word text => text
  | .fields name members hidesSome =>
    let parts := memberBlocks (indent + 1) members
      ++ if hidesSome then [margin (indent + 1) ++ "..\n"] else []
    if parts.isEmpty then name
    else name ++ " \x7b\n" ++ String.join parts ++ margin indent ++ "\x7d"

/-- Each field with its value, on lines of its own. -/
def memberBlocks (indent : Nat) : List (String × Outline) → List String
  | [] => []
  | (name, value) :: rest =>
    (margin indent ++ name ++ ": " ++ value.block indent ++ ",\n") :: memberBlocks indent rest

/-- The space in front of a line, four blanks a level. -/
def margin (indent : Nat) : String := String.ofList (List.replicate (4 * indent) ' ')

end

end Outline

end AgentHost.Text
