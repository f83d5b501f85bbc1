import AgentHost.Config
/-!
# What the defaults set

With defaults no field is zero or empty any more, and a field that was set is as
it was.
-/

namespace AgentHost

namespace Path

@[simp] theorem isEmpty_iff {p : Path} : p.isEmpty = true ↔ p.bytes = [] := by
  simp [isEmpty]

theorem join_bytes_ne_nil {p : Path} {name : Text.Bytes} (hname : name ≠ []) : (p.join name).bytes ≠ [] := by
  unfold join
  split
  · exact hname
  · split <;> simp [hname]

end Path

namespace Config

theorem agentsName_ne_nil : agentsName ≠ [] := by decide +kernel

theorem defaultDataDir_bytes_ne_nil : defaultDataDir.bytes ≠ [] := by decide +kernel

/-- No number, text or path is zero or empty. -/
structure Complete (c : Config) : Prop where
  host : c.server.host ≠ ""
  port : c.server.port ≠ 0
  readTimeout : c.server.readTimeout ≠ 0
  writeTimeout : c.server.writeTimeout ≠ 0
  dataDir : c.dataDir.bytes ≠ []
  agentsDir : c.agentsDir.bytes ≠ []
  level : c.logging.level ≠ ""

/-- A choice between a value and a default that is set is set. -/
theorem ite_default_ne {α : Type} [DecidableEq α] {x unset default : α} (h : default ≠ unset) :
    (if x = unset then default else x) ≠ unset := by
  split
  case isTrue => exact h
  case isFalse hx => exact hx

/-- With defaults every field is set. -/
theorem withDefaults_complete (c : Config) : c.withDefaults.Complete where
  host := ite_default_ne (by decide)
  port := ite_default_ne (by decide)
  readTimeout := ite_default_ne (by decide)
  writeTimeout := ite_default_ne (by decide)
  dataDir := by
    simp only [withDefaults, Path.isEmpty_iff]
    split
    case isTrue => exact defaultDataDir_bytes_ne_nil
    case isFalse h => exact h
  agentsDir := by
    simp only [withDefaults, Path.isEmpty_iff]
    split
    case isTrue => exact Path.join_bytes_ne_nil agentsName_ne_nil
    case isFalse h => exact h
  level := ite_default_ne (by decide)

end Config

end AgentHost
