import AgentHost.Proofs.Program.Layers
/-!
# The stages of a run

A run goes from the command line to the configuration, from there to its address,
and then serves. A stage that fails ends the run, and nothing of the later ones is
done. So the exit code is 0 for help, for the version, and for a server that was
asked to stop and did, and for nothing else.
-/

namespace AgentHost.Program

open CommandLine (Request)

/-! ## Before the configuration is there -/

theorem launch_refused {s : Setting} {refusal : CommandLine.Refusal} (w : World)
    (hargs : CommandLine.parse (CommandLine.normalize s.args) = .error refusal) :
    (launch s).runIn w =
      if refusal = .help then ⟨refusal.message (CommandLine.programName (CommandLine.normalize s.args)), "", [], [], some 0⟩
      else ⟨"", refusal.message (CommandLine.programName (CommandLine.normalize s.args)), [], [], some 1⟩ := by
  simp only [launch, hargs]
  cases refusal <;> simp [CommandLine.Refusal.isError, runIn, Transcript.ending]

theorem launch_version {s : Setting} {q : Request} (w : World)
    (hargs : CommandLine.parse (CommandLine.normalize s.args) = .ok q) (hversion : q.version = true) :
    (launch s).runIn w = ⟨s.build.summary ++ "\n", "", [], [], some 0⟩ := by
  simp [launch, hargs, perform, hversion, runIn, Transcript.ending]

theorem launch_unloaded {s : Setting} {w : World} {q : Request} {e : Config.LoadError}
    (hargs : CommandLine.parse (CommandLine.normalize s.args) = .ok q) (hversion : q.version = false)
    (hload : Config.load w.files q.config = .error e) :
    (launch s).runIn w = ⟨"", "error: load config: " ++ e.message ++ "\n", (Config.file? q.config).toList, [], some 1⟩ := by
  have hfail : (loaded s q.port (Config.load w.files q.config)).runIn w =
      ⟨"", "error: load config: " ++ e.message ++ "\n", [], [], some 1⟩ := by
    rw [hload, loaded, runIn_fail, failed_config]
  obtain ⟨hfile, hlaunch⟩ | ⟨path, next, hfile, hlaunch, hnext⟩ := launch_reads w hargs hversion
  · rw [hlaunch, hfail, hfile]
    rfl
  · rw [hlaunch, hfile, runIn, hnext, hfail]
    rfl

/-! ## With a configuration -/

section
variable {s : Setting} {w : World} {q : Request} {c : Config}
  (hargs : CommandLine.parse (CommandLine.normalize s.args) = .ok q) (hversion : q.version = false)
  (hload : Config.load w.files q.config = .ok c)
include hargs hversion hload

theorem muted_launch_unbound {cause : IoError} (hbind : w.bind (withPort q.port c).server = .error cause) :
    let address := Server.address (withPort q.port c).server
    ((launch s).runIn w).muted =
      ⟨"", complaints s c.logging.level ++ ("error: bind failed on " ++ address ++ ": " ++ cause.message ++ "\n"),
        (Config.file? q.config).toList, [address], some 1⟩ := by
  have hrun := muted_launch_loaded hargs hversion hload
  rw [started_of_error hbind, failed_bind] at hrun
  exact hrun

/-- A run that serves ends as serving does, and never ends if that does not. -/
theorem muted_launch_served {endpoint : Endpoint} (hbind : w.bind (withPort q.port c).server = .ok endpoint) :
    let warnings := complaints s c.logging.level
    let reads := (Config.file? q.config).toList
    let address := Server.address (withPort q.port c).server
    match w.served Server.defaultGrace with
    | none => ((launch s).runIn w).muted = ⟨"", warnings, reads, [address], none⟩
    | some .done => ((launch s).runIn w).muted = ⟨"", warnings, reads, [address], some 0⟩
    | some (.failed e) =>
      ((launch s).runIn w).muted = ⟨"", warnings ++ ("error: " ++ e.message ++ "\n"), reads, [address], some 1⟩ := by
  have hrun := muted_launch_loaded hargs hversion hload
  have hgrace : (Server.ofConfig (withPort q.port c)).grace = Server.defaultGrace := rfl
  rw [started_of_ok hbind, hgrace] at hrun
  generalize w.served Server.defaultGrace = result at hrun ⊢
  rcases result with _ | _ | e
  · simp only [ended, Transcript.ending, String.append_empty] at hrun
    exact hrun
  · simp only [ended, Transcript.ending, String.append_empty] at hrun
    exact hrun
  · exact hrun

/-- A run with a configuration ends well where the server is bound, asked to stop, and does. -/
theorem code_launch_loaded :
    ((launch s).runIn w).code = some 0 ↔
      (∃ endpoint, w.bind (withPort q.port c).server = .ok endpoint) ∧
        (∃ signal, w.wake = some (.signal signal)) ∧ w.drained = .ended none := by
  have hrun := muted_launch_loaded hargs hversion hload
  show ((launch s).runIn w).muted.code = some 0 ↔ _
  rw [hrun, code_started_eq_zero_iff, World.served_eq_done_iff]
  rfl

end

/-! ## The whole run -/

/-- Every run is one of these, decided in this order: the command line is refused, the
version is asked for, the configuration does not load, its address cannot be bound,
or the server serves. -/
theorem launch_staged (s : Setting) (w : World) :
    let args := CommandLine.normalize s.args
    let t := (launch s).runIn w
    (match CommandLine.parse args with
      | .error refusal =>
        let report := refusal.message (CommandLine.programName args)
        t = if refusal = .help then ⟨report, "", [], [], some 0⟩ else ⟨"", report, [], [], some 1⟩
      | .ok q =>
        if q.version then t = ⟨s.build.summary ++ "\n", "", [], [], some 0⟩
        else
          let reads := (Config.file? q.config).toList
          match Config.load w.files q.config with
          | .error e => t = ⟨"", "error: load config: " ++ e.message ++ "\n", reads, [], some 1⟩
          | .ok c =>
            let settings : ServerSettings := { c.server with port := q.port.getD c.server.port }
            let address := settings.host ++ ":" ++ toString settings.port.toNat
            let warnings := complaints s c.logging.level
            match w.bind settings with
            | .error cause =>
              t.muted = ⟨"", warnings ++ ("error: bind failed on " ++ address ++ ": " ++ cause.message ++ "\n"), reads,
                [address], some 1⟩
            | .ok _ =>
              match w.served Server.defaultGrace with
              | none => t.muted = ⟨"", warnings, reads, [address], none⟩
              | some .done => t.muted = ⟨"", warnings, reads, [address], some 0⟩
              | some (.failed e) => t.muted = ⟨"", warnings ++ ("error: " ++ e.message ++ "\n"), reads, [address], some 1⟩) ∧
    (t.code = some 0 ↔
      CommandLine.parse args = .error .help ∨
      (∃ q, CommandLine.parse args = .ok q ∧ q.version = true) ∨
      ∃ q c, CommandLine.parse args = .ok q ∧ q.version = false ∧ Config.load w.files q.config = .ok c ∧
        (∃ endpoint, w.bind { c.server with port := q.port.getD c.server.port } = .ok endpoint) ∧
        (∃ signal, w.wake = some (.signal signal)) ∧ w.drained = .ended none) := by
  intro args t
  cases hargs : CommandLine.parse args with
  | error refusal =>
    have hrun := launch_refused w hargs
    refine ⟨hrun, ?_⟩
    have hcode : t.code = some 0 ↔ refusal = .help := by
      rw [show t = _ from hrun]
      split <;> simp [*]
    simpa using hcode
  | ok q =>
    cases hversion : q.version with
    | true =>
      have hrun : t = _ := launch_version w hargs hversion
      refine ⟨?_, iff_of_true (congrArg Transcript.code hrun) (.inr (.inl ⟨q, rfl, hversion⟩))⟩
      simp only [hversion, if_true]
      exact hrun
    | false =>
      simp only [hversion, Bool.false_eq_true, if_false]
      cases hload : Config.load w.files q.config with
      | error e =>
        have hrun : t = _ := launch_unloaded hargs hversion hload
        refine ⟨hrun, ?_⟩
        rw [hrun]
        simp [hversion, hload]
      | ok c =>
        refine ⟨?_, (code_launch_loaded hargs hversion hload).trans ⟨fun h => ?_, ?_⟩⟩
        · dsimp only
          cases hbind : w.bind { c.server with port := q.port.getD c.server.port } with
          | error cause => exact muted_launch_unbound hargs hversion hload hbind
          | ok endpoint => exact muted_launch_served hargs hversion hload hbind
        · exact .inr (.inr ⟨q, c, rfl, hversion, hload, h⟩)
        · rintro (hhelp | ⟨q', hq, hasked⟩ | ⟨q', c', hq, -, hc, h⟩)
          · cases hhelp
          · cases hq
            rw [hversion] at hasked
            cases hasked
          · cases hq
            cases hload.symm.trans hc
            exact h

end AgentHost.Program
