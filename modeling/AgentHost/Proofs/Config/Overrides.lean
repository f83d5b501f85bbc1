import AgentHost.Proofs.Config.Sameness
/-!
# Defaults and overrides

Defaults are for what is not set, so a second time they do nothing, and what an
override sets they leave alone. Whether the override or the defaults come first
matters for one field alone: the directory of the agents, where it was derived
before the override moved the directory of the data.
-/

namespace AgentHost

theorem Path.eq_empty_iff {p : Path} : p = ⟨[]⟩ ↔ p.bytes = [] :=
  ⟨congrArg Path.bytes, congrArg Path.mk⟩

/-- Every value of the override is set: none is zero or empty. -/
structure Override.Assigns (o : Override) : Prop where
  host : o.host ≠ some ""
  port : o.port ≠ some 0
  readTimeout : o.readTimeout ≠ some 0
  writeTimeout : o.writeTimeout ≠ some 0
  dataDir : o.dataDir ≠ some ⟨[]⟩
  agentsDir : o.agentsDir ≠ some ⟨[]⟩
  level : o.level ≠ some ""

namespace Config

variable {c : Config} {o : Override}

/-! ## Fixed points -/

/-- Where everything is set the defaults change nothing. -/
theorem Complete.withDefaults_eq (h : c.Complete) : c.withDefaults = c := by
  obtain ⟨⟨_, _, _, _⟩, _, _, ⟨_, _⟩⟩ := c
  simp only [withDefaults, ServerSettings.withDefaults, LogSettings.withDefaults, Path.isEmpty_iff, if_neg h.host,
    if_neg h.port, if_neg h.readTimeout, if_neg h.writeTimeout, if_neg h.dataDir, if_neg h.agentsDir, if_neg h.level]

theorem withDefaults_eq_self_iff : c.withDefaults = c ↔ c.Complete :=
  ⟨fun h => h ▸ c.withDefaults_complete, Complete.withDefaults_eq⟩

theorem withDefaults_idem (c : Config) : c.withDefaults.withDefaults = c.withDefaults :=
  c.withDefaults_complete.withDefaults_eq

/-! ## One field -/

/-- A value that is set, or the value there was, is set where that was. -/
theorem getD_ne {α : Type} {x unset : α} {new : Option α} (hnew : new ≠ some unset) (hx : x ≠ unset) :
    new.getD x ≠ unset := by
  cases new with
  | none => exact hx
  | some v => exact fun h => hnew (congrArg some h)

/-- A new value that is set may be taken before the default or after it. -/
theorem ite_getD {α : Type} [DecidableEq α] {x unset default : α} {new : Option α} (hnew : new ≠ some unset) :
    (if new.getD x = unset then default else new.getD x) = new.getD (if x = unset then default else x) := by
  cases new with
  | none => rfl
  | some v => exact if_neg fun h => hnew (congrArg some h)

/-- What differs in the directory of the agents alone is the same where the two
directories are. -/
theorem same_agentsDir (c : Config) (p : Path) : c.same { c with agentsDir := p } = c.agentsDir.same p := by
  rw [Bool.eq_iff_iff, same_iff, Path.same_iff]
  exact ⟨fun h => h.2.2.1, fun h => ⟨rfl, rfl, h, rfl⟩⟩

end Config

open Config

namespace Override

variable {c : Config} {o : Override}

/-! ## All fields -/

theorem Assigns.apply_complete (h : o.Assigns) (hc : c.Complete) : (o.apply c).Complete where
  host := getD_ne h.host hc.host
  port := getD_ne h.port hc.port
  readTimeout := getD_ne h.readTimeout hc.readTimeout
  writeTimeout := getD_ne h.writeTimeout hc.writeTimeout
  dataDir := mt Path.eq_empty_iff.2 (getD_ne h.dataDir (mt Path.eq_empty_iff.1 hc.dataDir))
  agentsDir := mt Path.eq_empty_iff.2 (getD_ne h.agentsDir (mt Path.eq_empty_iff.1 hc.agentsDir))
  level := getD_ne h.level hc.level

/-- Once there are defaults and a proper override, there is nothing left to set. -/
theorem Assigns.withDefaults_apply (h : o.Assigns) (c : Config) :
    (o.apply c.withDefaults).withDefaults = o.apply c.withDefaults :=
  (h.apply_complete c.withDefaults_complete).withDefaults_eq

/-- Where the agents are if the override comes first: below the new data. -/
theorem Assigns.agentsDir_apply (h : o.Assigns) (c : Config) :
    (o.apply c).withDefaults.agentsDir = o.agentsDir.getD
      (if c.agentsDir = ⟨[]⟩ then (o.dataDir.getD c.withDefaults.dataDir).join agentsName else c.agentsDir) := by
  simp only [withDefaults, apply, ← Path.eq_empty_iff, Path.isEmpty_iff, ite_getD h.agentsDir, ite_getD h.dataDir]

/-- Where they are if the defaults come first: below the data there was. -/
theorem agentsDir_apply_withDefaults (o : Override) (c : Config) :
    (o.apply c.withDefaults).agentsDir = o.agentsDir.getD
      (if c.agentsDir = ⟨[]⟩ then c.withDefaults.dataDir.join agentsName else c.agentsDir) := by
  simp only [withDefaults, apply, ← Path.eq_empty_iff, Path.isEmpty_iff]

/-- But for the directory of the agents the order does not matter. -/
theorem Assigns.apply_withDefaults (h : o.Assigns) (c : Config) :
    o.apply c.withDefaults =
      { (o.apply c).withDefaults with agentsDir := (o.apply c.withDefaults).agentsDir } := by
  unfold apply
  simp only [withDefaults, ServerSettings.withDefaults, LogSettings.withDefaults, ← Path.eq_empty_iff,
    Path.isEmpty_iff, ite_getD h.host, ite_getD h.port, ite_getD h.readTimeout, ite_getD h.writeTimeout,
    ite_getD h.dataDir, ite_getD h.level]

/-- The orders come to the same where the two directories of the agents do. -/
theorem Assigns.order_iff (h : o.Assigns) (c : Config) :
    (o.apply c).withDefaults = (o.apply c.withDefaults).withDefaults ↔
      (o.apply c).withDefaults.agentsDir = (o.apply c.withDefaults).agentsDir := by
  rw [h.withDefaults_apply]
  constructor
  · exact congrArg Config.agentsDir
  · intro hagents
    rw [h.apply_withDefaults, ← hagents]

/-- Defaults change nothing the second time, and nothing at all exactly where all is
set. A proper override may come before them or after them, unless it moves the data
and the directory of the agents is derived: then it is derived from the data that was
resolved by the defaults, and that is the only difference. -/
theorem apply_order (c : Config) :
    c.withDefaults.withDefaults = c.withDefaults ∧
    (c.withDefaults = c ↔ c.Complete) ∧
    ∀ o : Override, o.Assigns →
      let early := (o.apply c).withDefaults
      let late := (o.apply c.withDefaults).withDefaults
      (o.dataDir = none ∨ o.agentsDir ≠ none ∨ c.agentsDir.bytes ≠ [] → early = late) ∧
      ∀ dir, o.dataDir = some dir → o.agentsDir = none → c.agentsDir.bytes = [] →
        (early ≠ late ↔ dir.join agentsName ≠ c.withDefaults.dataDir.join agentsName) ∧
        early.same late = (dir.join agentsName).same (c.withDefaults.dataDir.join agentsName) ∧
        early.agentsDir = dir.join agentsName ∧
        late = { early with agentsDir := c.withDefaults.dataDir.join agentsName } := by
  refine ⟨c.withDefaults_idem, withDefaults_eq_self_iff, fun o h => ⟨fun hapart => ?_, ?_⟩⟩
  · -- Only the directory of the agents can differ, and it is the same in each of the three cases.
    rw [h.order_iff, h.agentsDir_apply, agentsDir_apply_withDefaults]
    rcases hapart with hdata | hagents | hset
    · rw [hdata, Option.getD_none]
    · obtain ⟨dir, hdir⟩ := Option.ne_none_iff_exists'.1 hagents
      rw [hdir, Option.getD_some, Option.getD_some]
    · rw [if_neg (mt Path.eq_empty_iff.1 hset), if_neg (mt Path.eq_empty_iff.1 hset)]
  · intro dir hdata hagents hunset
    have hearly : (o.apply c).withDefaults.agentsDir = dir.join agentsName := by
      rw [h.agentsDir_apply, hagents, hdata, if_pos (Path.eq_empty_iff.2 hunset), Option.getD_none, Option.getD_some]
    have hlate : (o.apply c.withDefaults).agentsDir = c.withDefaults.dataDir.join agentsName := by
      rw [agentsDir_apply_withDefaults, hagents, if_pos (Path.eq_empty_iff.2 hunset), Option.getD_none]
    have honly : (o.apply c.withDefaults).withDefaults =
        { (o.apply c).withDefaults with agentsDir := c.withDefaults.dataDir.join agentsName } := by
      rw [h.withDefaults_apply, h.apply_withDefaults, hlate]
    refine ⟨?_, ?_, hearly, honly⟩
    · rw [ne_eq, h.order_iff, hearly, hlate]
    · rw [honly, Config.same_agentsDir, hearly]

/-- An override that moves the data. -/
def moved (dir : String) : Override := { unchanged with dataDir := some (.ofString dir) }

theorem moved_assigns : (moved "/srv").Assigns := by
  constructor <;> decide +kernel

theorem apply_order_moved :
    ((moved "/srv").apply unset).withDefaults ≠ ((moved "/srv").apply unset.withDefaults).withDefaults ∧
      ((moved "/srv").apply unset).withDefaults.agentsDir = .ofString "/srv/agents" ∧
      ((moved "/srv").apply unset.withDefaults).withDefaults.agentsDir = .ofString "./.agnx/agents" := by
  obtain ⟨-, -, horder⟩ := apply_order unset
  obtain ⟨hdiffer, -, hearly, hlate⟩ := (horder _ moved_assigns).2 (.ofString "/srv") rfl rfl rfl
  refine ⟨hdiffer.2 (by decide +kernel), hearly.trans (by decide +kernel), ?_⟩
  rw [hlate]
  decide +kernel

end Override

end AgentHost
