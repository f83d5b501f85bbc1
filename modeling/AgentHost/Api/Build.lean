/-!
# How the program was built

A release is built with its version, commit and date. What is not told, or is
told as empty, has a placeholder, so that no part is ever empty.
-/

namespace AgentHost.Api

/-- How the program was built. -/
structure Build where
  version : String
  commit : String
  date : String
  compiler : String
  deriving DecidableEq, Repr

namespace Build

/-- A value that was told, or a placeholder. -/
def orPlaceholder (value : Option String) (placeholder : String) : String :=
  match value with
  | some v => if v = "" then placeholder else v
  | none => placeholder

/-- The build that is described by what was told. -/
def ofParts (version commit date compiler : Option String) : Build where
  version := orPlaceholder version "dev"
  commit := orPlaceholder commit "none"
  date := orPlaceholder date "unknown"
  compiler := orPlaceholder compiler "unknown"

/-- The build in one line. -/
def summary (b : Build) : String :=
  "agnx " ++ b.version ++ " (commit " ++ b.commit ++ ") built " ++ b.date ++
    " (rustc " ++ b.compiler ++ ")"

end Build

end AgentHost.Api
