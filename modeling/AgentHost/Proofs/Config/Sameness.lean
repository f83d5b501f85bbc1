import AgentHost.Proofs.Config.Defaults
import AgentHost.Proofs.Path.Components
/-!
# Configurations that are the same

Directories are compared by their components, while a directory is unset only if it
has no bytes. The two agree, and so the defaults of configurations that are the same
are the same.
-/

namespace AgentHost.Config

open Relation (EqvGen)

variable {c d : Config}

theorem same_iff : c.same d = true ↔ c.server = d.server ∧ c.dataDir.components = d.dataDir.components ∧
    c.agentsDir.components = d.agentsDir.components ∧ c.logging = d.logging := by
  simp only [same, Bool.and_eq_true, beq_iff_eq, Path.same_iff, and_assoc]

theorem same_equivalence : Equivalence fun c d : Config => c.same d = true where
  refl _ := same_iff.2 ⟨rfl, rfl, rfl, rfl⟩
  symm h := by
    obtain ⟨hserver, hdata, hagents, hlogging⟩ := same_iff.1 h
    exact same_iff.2 ⟨hserver.symm, hdata.symm, hagents.symm, hlogging.symm⟩
  trans h h' := by
    obtain ⟨hserver, hdata, hagents, hlogging⟩ := same_iff.1 h
    obtain ⟨hserver', hdata', hagents', hlogging'⟩ := same_iff.1 h'
    exact same_iff.2 ⟨hserver.trans hserver', hdata.trans hdata', hagents.trans hagents', hlogging.trans hlogging'⟩

/-! ## Directories -/

theorem isName_agentsName : Path.IsName agentsName where
  slash := by decide +kernel
  empty := agentsName_ne_nil
  current := by decide +kernel
  parent := by decide +kernel

/-- Paths with the same components are both unset or both set. -/
theorem isEmpty_congr {p q : Path} (h : p.components = q.components) : p.isEmpty = q.isEmpty := by
  rw [Bool.eq_iff_iff, Path.isEmpty_iff, Path.isEmpty_iff, ← Path.components_eq_nil_iff, h, Path.components_eq_nil_iff]

/-- A path that takes the place of one that is unset has the same components as one
that takes the place of the same path. -/
theorem components_orElse {p q p' q' : Path} (h : p.components = q.components) (h' : p'.components = q'.components) :
    (if p.isEmpty then p' else p).components = (if q.isEmpty then q' else q).components := by
  rw [isEmpty_congr h]
  split
  · exact h'
  · exact h

theorem same_withDefaults (h : c.same d = true) : c.withDefaults.same d.withDefaults = true := by
  obtain ⟨hserver, hdata, hagents, hlogging⟩ := same_iff.1 h
  have hdatadir : c.withDefaults.dataDir.components = d.withDefaults.dataDir.components := components_orElse hdata rfl
  refine same_iff.2 ⟨congrArg ServerSettings.withDefaults hserver, hdatadir, components_orElse hagents ?_,
    congrArg LogSettings.withDefaults hlogging⟩
  rw [Path.components_join isName_agentsName, Path.components_join isName_agentsName]
  exact congrArg (· ++ _) hdatadir

/-- Where no directory of the agents is set it is derived from that of the data. -/
theorem agentsDir_withDefaults (hdata : c.dataDir.bytes ≠ []) (hagents : c.agentsDir.bytes = []) :
    c.withDefaults.agentsDir = c.dataDir.join agentsName := by
  simp only [withDefaults, Path.isEmpty_iff, if_pos hagents, if_neg hdata]

/-- Being the same, field by field and the directories up to slashes and dots that do
not count, is an equivalence, and defaults keep it. The derived directory of the
agents is one component below that of the data, however that is spelled. -/
theorem same_is_congruence :
    (Equivalence fun c d : Config => c.same d = true) ∧
    (∀ c d : Config, c.same d = true ↔ c.server = d.server ∧ c.dataDir.components = d.dataDir.components ∧
      c.agentsDir.components = d.agentsDir.components ∧ c.logging = d.logging) ∧
    (∀ p q : Path, p.components = q.components ↔ EqvGen Path.Respelled p q) ∧
    (∀ c d : Config, c.same d = true → c.withDefaults.same d.withDefaults = true) ∧
    ∀ c : Config, c.dataDir.bytes ≠ [] → c.agentsDir.bytes = [] →
      c.withDefaults.agentsDir.components = c.dataDir.components ++ [.name (Text.Utf8.ofString "agents")] ∧
      c.withDefaults.agentsDir.bytes = c.dataDir.bytes ++
        (if c.dataDir.bytes.getLast? = some Path.slash then [] else [Path.slash]) ++ Text.Utf8.ofString "agents" := by
  refine ⟨same_equivalence, fun _ _ => same_iff, fun p q => ?_, fun _ _ => same_withDefaults, fun c hdata hagents => ?_⟩
  · rw [← Path.same_iff]
    exact Path.same_iff_respelled
  · rw [agentsDir_withDefaults hdata hagents]
    exact ⟨Path.components_join isName_agentsName _, Path.bytes_join hdata _⟩

/-- A configuration that sets nothing but the directory of the data. -/
def dataAt (dir : String) : Config := { unset with dataDir := .ofString dir }

theorem same_is_congruence_respelled :
    (dataAt "/srv/a").same (dataAt "/srv//./a/.") = true ∧
      (dataAt "/srv/a").withDefaults.same (dataAt "/srv//./a/.").withDefaults = true ∧
      (dataAt "/srv//./a/.").withDefaults.agentsDir = .ofString "/srv//./a/./agents" := by
  have hsame : (dataAt "/srv/a").same (dataAt "/srv//./a/.") = true := by decide +kernel
  obtain ⟨-, -, -, hdefaults, hderived⟩ := same_is_congruence
  refine ⟨hsame, hdefaults _ _ hsame, ?_⟩
  have hbytes := (hderived (dataAt "/srv//./a/.") (by decide +kernel) rfl).2
  exact congrArg Path.mk (hbytes.trans (by decide +kernel))

end AgentHost.Config
