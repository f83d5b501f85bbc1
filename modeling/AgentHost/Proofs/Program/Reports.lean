import AgentHost.Proofs.Config.Messages
import AgentHost.Proofs.Program.Stages
/-!
# Reports on one line

A run that does not load its configuration, or does not bind its address, ends with a
report: a message behind `error: `, and the end of the line. The message is on one
line but for the texts that it repeats as they stand, which are the path of the file,
the name of an unknown format and the configured host.
-/

namespace AgentHost

open Text (OneLine oneLine_append oneLine_nat)

namespace Network

/-- A network fails with causes on one line. -/
theorem oneLine_cause {n : Network} {s : ServerSettings} {cause : IoError} (h : n.bind s = .error cause) :
    OneLine cause.message := by
  unfold bind at h
  split at h
  case h_1 hhost =>
    cases h
    unfold resolve at hhost
    split at hhost
    · cases hhost
      exact .ofChars rfl
    split at hhost
    · cases hhost
    split at hhost
    · cases hhost
    · cases hhost
      exact .ofChars rfl
  case h_2 =>
    simp only at h
    split at h
    · cases h
    split at h
    · cases h
      exact IoError.oneLine_system 13
    split at h
    · cases h
      exact IoError.oneLine_system 98
    · cases h

end Network

namespace Program

open CommandLine (Request)

theorem oneLine_unbound {settings : ServerSettings} {cause : IoError} :
    OneLine (StartError.message (.server (.bind (Server.address settings) cause))) ↔
      OneLine settings.host ∧ OneLine cause.message := by
  have hmessage : OneLine ("bind failed on " ++ (settings.host ++ ":" ++ toString settings.port.toNat) ++ ": " ++
      cause.message) ↔ OneLine settings.host ∧ OneLine cause.message := by
    simp only [oneLine_append]
    exact ⟨fun h => ⟨h.1.1.2.1.1, h.2⟩, fun h => ⟨⟨⟨.ofChars rfl, ⟨h.1, .ofChars rfl⟩, oneLine_nat _⟩, .ofChars rfl⟩, h.2⟩⟩
  exact hmessage

theorem oneLine_unloaded {e : Config.LoadError} :
    OneLine (StartError.message (.config e)) ↔ OneLine e.message := by
  have hmessage : OneLine ("load config: " ++ e.message) ↔ OneLine e.message := by
    rw [oneLine_append]
    exact ⟨fun h => h.2, fun h => ⟨.ofChars rfl, h⟩⟩
  exact hmessage

/-- A start that fails is reported by a message and the end of its line. The message is
on one line if the texts that it repeats are: those of the error where the
configuration is not loaded, and the host where the address is not bound. -/
theorem launch_reports {s : Setting} {w : World} {q : Request}
    (hargs : CommandLine.parse (CommandLine.normalize s.args) = .ok q) (hversion : q.version = false) :
    (∀ e, Config.load w.files q.config = .error e →
      let message := StartError.message (.config e)
      ((launch s).runIn w).errors = "error: " ++ message ++ "\n" ∧
        (OneLine message ↔ ∀ text ∈ e.verbatim, OneLine text)) ∧
    (∀ c cause, Config.load w.files q.config = .ok c → w.bind (withPort q.port c).server = .error cause →
      let message := StartError.message (.server (.bind (Server.address (withPort q.port c).server) cause))
      ((launch s).runIn w).errors = complaints s c.logging.level ++ ("error: " ++ message ++ "\n") ∧
        (OneLine message ↔ OneLine c.server.host ∧ OneLine cause.message) ∧
        ∀ n : Network, w.bind = n.bind → OneLine cause.message) := by
  constructor
  · intro e hload message
    have herrors : ((launch s).runIn w).errors = (failed (.config e)).errors := by
      rw [launch_unloaded hargs hversion hload, failed_config]
    exact ⟨herrors, oneLine_unloaded.trans (Config.load_message_iff hload)⟩
  · intro c cause hload hbind message
    have hrun := congrArg Transcript.errors (muted_launch_unbound hargs hversion hload hbind)
    have herrors : ((launch s).runIn w).errors = complaints s c.logging.level ++
        (failed (.server (.bind (Server.address (withPort q.port c).server) cause))).errors := by
      rw [failed_bind]
      exact hrun
    refine ⟨herrors, oneLine_unbound, fun n hnetwork => ?_⟩
    rw [hnetwork] at hbind
    exact Network.oneLine_cause hbind

/-- A file is asked for that is not there. -/
def astray (name : String) : Setting :=
  { overridden with args := ["agnx", "-c", name].map Text.Utf8.ofString }

theorem load_unread {files : Files} {path : Path} {cause : IoError} (hpath : path.isEmpty = false)
    (h : files.read path = .error cause) : Config.load files (some path) = .error (.io path cause) := by
  have hfile : Config.file? (some path) = some path := by simp [Config.file?, hpath]
  simp only [Config.load, hfile, Config.ofFile, h]
  rfl

theorem launch_reports_astray :
    ((launch (astray "b.yml")).runIn fileWorld).errors =
      "error: load config: failed to read config file b.yml: No such file or directory (os error 2)\n" ∧
    OneLine "load config: failed to read config file b.yml: No such file or directory (os error 2)" := by
  have hargs : CommandLine.parse (CommandLine.normalize (astray "b.yml").args) =
      .ok ⟨some (.ofString "b.yml"), none, false⟩ := ok_of_toOption (by decide +kernel)
  have hread : fileWorld.files.read (.ofString "b.yml") = .error .notFound := by rfl
  have hload := load_unread (by decide +kernel) hread
  obtain ⟨herrors, hline⟩ := (launch_reports hargs rfl).1 _ hload
  have hmessage : StartError.message (.config (.io (.ofString "b.yml") .notFound)) =
      "load config: failed to read config file b.yml: No such file or directory (os error 2)" := by decide +kernel
  rw [hmessage] at herrors hline
  exact ⟨herrors.trans (by decide +kernel), hline.2 (by decide +kernel)⟩

/-- A path with a line break in it makes a report of two lines. -/
theorem report_on_two_lines : ¬ ∀ (s : Setting) (w : World) (q : Request) (e : Config.LoadError),
    CommandLine.parse (CommandLine.normalize s.args) = .ok q → q.version = false →
    Config.load w.files q.config = .error e →
    ∃ message, OneLine message ∧ ((launch s).runIn w).errors = "error: " ++ message ++ "\n" := by
  intro h
  have hargs : CommandLine.parse (CommandLine.normalize (astray "a\nb").args) =
      .ok ⟨some (.ofString "a\nb"), none, false⟩ := ok_of_toOption (by decide +kernel)
  have hread : fileWorld.files.read (.ofString "a\nb") = .error .notFound := by rfl
  obtain ⟨message, hline, herrors⟩ := h _ fileWorld _ _ hargs rfl (load_unread (by decide +kernel) hread)
  have htwo : ((launch (astray "a\nb")).runIn fileWorld).errors.toList.count '\n' = 2 := by decide +kernel
  have hnone : message.toList.count '\n' = 0 := List.count_eq_zero.2 fun hmem => absurd (hline _ hmem) (by decide)
  have hfront : "error: ".toList.count '\n' = 0 := by decide
  have hback : "\n".toList.count '\n' = 1 := by decide
  rw [herrors, String.toList_append, String.toList_append, List.count_append, List.count_append, hnone, hfront,
    hback] at htwo
  cases htwo

end Program

end AgentHost
