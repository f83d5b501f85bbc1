import AgentHost.Proofs.Except
import AgentHost.Proofs.Serving.Outcome
import AgentHost.Server.Lifecycle
/-!
# What comes of a server

A `Life` does with a server what it is told to, one thing after the other. What it
has then is said by `Sound`, which every step keeps: the parties of a server that
serves have made a run of `Serving.State`, in which shutdown was asked for exactly
where a step did so, before serving or since.

`joined_as_served`: so the result of a server is the one that its parties came to.
-/

namespace AgentHost.Life

open Serving (Caller State)

/-- The life behind some steps. -/
def after (l : Life) (steps : List Step) : Life := steps.foldl (fun l x => (l.step x).1) l

/-! ## The parties -/

/-- The parties have made a run in which shutdown was asked for or not. Since there are
no requests they have done what they could: returned, or nothing yet. -/
structure Serves (grace : Duration) (asked : Bool) (parties : State) : Prop where
  ran : ∃ early events, parties = (State.start early).run grace events ∧
    (asked = true ↔ early = true ∨ .trigger ∈ events)
  waits : asked = false → parties = State.start false
  returned : asked = true → parties.caller = .returned .done ∧ parties.isRunning = false

variable {grace : Duration} {asked : Bool} {parties : State}

/-- Parties that have to stop, and have no requests, return. -/
theorem settle_stopping (h : parties.Stopping) (hidle : parties.inFlight = []) :
    (parties.settle grace).caller = .returned .done ∧ (parties.settle grace).isRunning = false := by
  obtain ⟨hcaller, htask, -⟩ := State.settle_idle grace h hidle
  exact ⟨hcaller, by rw [State.isRunning, htask]⟩

theorem serves_start (grace : Duration) (asked : Bool) : Serves grace asked ((State.start asked).settle grace) where
  ran := ⟨asked, State.reactions, rfl, by simp [State.reactions]⟩
  waits := by
    rintro rfl
    exact State.settle_open grace rfl rfl rfl rfl
  returned := by
    rintro rfl
    exact settle_stopping (.inl ⟨rfl, rfl, rfl⟩) rfl

/-- Where shutdown is asked for, the parties stop, if they have not before. -/
theorem Serves.trigger (h : Serves grace asked parties) :
    Serves grace true ((parties.step grace .trigger).settle grace) where
  ran := by
    obtain ⟨early, events, hran, -⟩ := h.ran
    refine ⟨early, events ++ .trigger :: State.reactions, ?_, by simp⟩
    rw [State.run_append, ← hran]
    rfl
  waits := nofun
  returned _ := by
    cases hasked : asked with
    | false =>
      rw [h.waits hasked]
      exact settle_stopping (.inl ⟨rfl, rfl, rfl⟩) rfl
    | true =>
      -- They have returned before, and nothing moves them now.
      obtain ⟨hcaller, hover⟩ := h.returned hasked
      have hsettled : (parties.step grace .trigger).settle grace = parties.step grace .trigger :=
        State.settle_returned grace hcaller hover
      rw [hsettled]
      exact ⟨hcaller, hover⟩

/-! ## The life -/

/-- What there is of a server after some steps. -/
structure Sound (network : Network) (server : Server) (steps : List Step) (l : Life) : Prop where
  network_eq : l.network = network
  grace_eq : l.grace = server.grace
  triggered_iff : l.triggered = true ↔ .trigger ∈ steps
  /-- The server is there until it is bound. -/
  unused : ∀ s, l.server = some s → s = server
  bound : ∀ e, l.bound = some e → network.bind server.config.server = .ok e
  unbound : ∀ cause, l.engagement = some (.unbound cause) →
    ∃ io, network.bind server.config.server = .error io ∧ cause = .bind (Server.address server.config.server) io
  serving : ∀ parties, l.engagement = some (.serving parties) →
    (∃ e, network.bind server.config.server = .ok e) ∧ Serves server.grace l.triggered parties

variable {network : Network} {server : Server} {steps : List Step} {l : Life}

theorem sound_start (network : Network) (server : Server) : Sound network server [] (start network server) where
  network_eq := rfl
  grace_eq := rfl
  triggered_iff := by simp [start]
  unused := by
    rintro s ⟨⟩
    rfl
  bound := nofun
  unbound := nofun
  serving := by rintro _ ⟨⟩

theorem Sound.bind_ok (h : Sound network server steps l) {e : Endpoint} (hbound : l.bindServer server = .ok e) :
    network.bind server.config.server = .ok e := by
  rw [bindServer, h.network_eq] at hbound
  exact ok_of_mapError hbound

theorem Sound.bind_error (h : Sound network server steps l) {cause : ServerError}
    (hfailed : l.bindServer server = .error cause) :
    ∃ io, network.bind server.config.server = .error io ∧ cause = .bind (Server.address server.config.server) io := by
  rw [bindServer, h.network_eq] at hfailed
  obtain ⟨io, hbind, hcause⟩ := error_of_mapError hfailed
  exact ⟨io, hbind, hcause.symm⟩

/-- The parties of a server that was bound. -/
theorem Sound.engaged (h : Sound network server steps l) {e : Endpoint} (hbind : network.bind server.config.server = .ok e)
    {parties : State} (hengaged : l.engage = .serving parties) :
    (∃ e, network.bind server.config.server = .ok e) ∧ Serves server.grace l.triggered parties := by
  rw [engage, h.grace_eq] at hengaged
  cases hengaged
  exact ⟨⟨e, hbind⟩, serves_start server.grace l.triggered⟩

/-- Only a `trigger` asks for shutdown. -/
theorem Sound.later (h : Sound network server steps l) {x : Step} (hx : x ≠ .trigger) :
    Sound network server (steps ++ [x]) l :=
  { h with triggered_iff := by rw [h.triggered_iff, List.mem_append, List.mem_singleton, or_iff_left hx.symm] }

theorem Sound.trigger (h : Sound network server steps l) : Sound network server (steps ++ [.trigger]) l.trigger := by
  have hnow : l.trigger.triggered = true ↔ .trigger ∈ steps ++ [.trigger] :=
    iff_of_true rfl (List.mem_append_right _ List.mem_cons_self)
  -- Nobody is told but parties that serve.
  cases hengaged : l.engagement with
  | none =>
    have htrigger : l.trigger.engagement = none := by rw [Life.trigger, hengaged]
    exact { h with triggered_iff := hnow, unbound := by simp [htrigger], serving := by simp [htrigger] }
  | some engagement =>
    cases engagement with
    | unbound cause =>
      have htrigger : l.trigger.engagement = l.engagement := by rw [Life.trigger, hengaged]
      refine { h with triggered_iff := hnow, unbound := ?_, serving := ?_ }
      · simpa only [htrigger] using h.unbound
      · simp [htrigger, hengaged]
    | serving parties =>
      have htrigger : l.trigger.engagement = some (.serving ((parties.step l.grace .trigger).settle l.grace)) := by
        rw [Life.trigger, hengaged]
      refine { h with triggered_iff := hnow, unbound := ?_, serving := ?_ }
      · simp [htrigger]
      · simp only [htrigger]
        rintro _ ⟨⟩
        obtain ⟨hbind, hserves⟩ := h.serving parties hengaged
        rw [h.grace_eq]
        exact ⟨hbind, hserves.trigger⟩

theorem sound_step (h : Sound network server steps l) (x : Step) : Sound network server (steps ++ [x]) (l.step x).1 := by
  by_cases hx : x = .trigger
  · subst hx
    exact h.trigger
  have hlater := h.later hx
  cases x with
  | trigger => exact absurd rfl hx
  | bind =>
    simp only [step]
    split
    case h_1 => exact hlater
    case h_2 s hserver =>
      -- The server is used up, whether its address can be bound or not.
      obtain rfl := h.unused s hserver
      split
      case h_1 e hbound =>
        refine { hlater with unused := nofun, bound := ?_ }
        rintro _ ⟨⟩
        exact h.bind_ok hbound
      case h_2 => exact { hlater with unused := nofun }
  | serve =>
    simp only [step]
    split
    case h_1 => exact hlater
    case h_2 e hbound =>
      exact { hlater with
        bound := nofun
        unbound := nofun
        serving := fun parties hengaged => h.engaged (h.bound e hbound) (Option.some.inj hengaged) }
  | run =>
    simp only [step]
    split
    case h_1 => exact hlater
    case h_2 s hserver =>
      obtain rfl := h.unused s hserver
      split
      case h_1 e hbound =>
        exact { hlater with
          unused := nofun
          unbound := nofun
          serving := fun parties hengaged => h.engaged (h.bind_ok hbound) (Option.some.inj hengaged) }
      case h_2 cause hfailed =>
        refine { hlater with unused := nofun, unbound := ?_, serving := by rintro _ ⟨⟩ }
        rintro _ ⟨⟩
        exact h.bind_error hfailed
  | isTriggered => exact hlater
  | isRunning =>
    simp only [step]
    split <;> exact hlater
  | join =>
    simp only [step]
    split
    · exact hlater
    · exact { hlater with unbound := nofun, serving := by rintro _ ⟨⟩ }
  | dropBound =>
    simp only [step]
    split
    · exact hlater
    · exact { hlater with bound := nofun }

/-- Whatever is done with a server, what there is of it stays sound. -/
theorem Sound.after {before : List Step} (h : Sound network server before l) (steps : List Step) :
    Sound network server (before ++ steps) (l.after steps) := by
  induction steps generalizing before l with
  | nil =>
    rw [List.append_nil]
    exact h
  | cons x steps ih =>
    rw [← List.singleton_append, ← List.append_assoc]
    exact ih (sound_step h x)

/-- What a server is joined with, after whatever was done with it:
* shutdown was asked for exactly where a step did so;
* where its address could not be bound, it is joined with that failure;
* where it serves, it is joined with the result that its parties came to in a run of
  `Serving.State` in which shutdown was asked for so. That is a good end, and without
  shutdown there will never be an answer. -/
theorem joined_as_served (network : Network) (server : Server) (steps : List Step) :
    let l := (start network server).after steps
    (l.step .isTriggered).2 = .flag (decide (.trigger ∈ steps)) ∧
    (∀ cause, l.engagement = some (.unbound cause) →
      ∃ io, network.bind server.config.server = .error io ∧
        (l.step .join).2 = .result (.failed (.bind (Server.address server.config.server) io))) ∧
    ∀ parties, l.engagement = some (.serving parties) →
      (∃ e, network.bind server.config.server = .ok e) ∧
      (∃ early events, parties = (State.start early).run server.grace events ∧
        (early = true ∨ .trigger ∈ events ↔ .trigger ∈ steps)) ∧
      (∀ r, (l.step .join).2 = .result r ↔ parties.caller = .returned r) ∧
      (.trigger ∈ steps → (l.step .join).2 = .result .done) ∧ (.trigger ∉ steps → (l.step .join).2 = .never) ∧
      (l.step .isRunning).2 = .flag (decide (.trigger ∉ steps)) := by
  intro l
  have h : Sound network server steps l := (sound_start network server).after steps
  refine ⟨?_, ?_, ?_⟩
  · have hflag : l.triggered = decide (.trigger ∈ steps) := by
      rw [Bool.eq_iff_iff, h.triggered_iff, decide_eq_true_iff]
    rw [← hflag]
    rfl
  · intro cause hengaged
    obtain ⟨io, hbind, rfl⟩ := h.unbound cause hengaged
    refine ⟨io, hbind, ?_⟩
    simp only [step, hengaged, Engagement.result?]
  · intro parties hengaged
    obtain ⟨hbind, hserves⟩ := h.serving parties hengaged
    obtain ⟨early, events, hran, hasked⟩ := hserves.ran
    have hjoined : ∀ r, parties.caller.result? = some r → (l.step .join).2 = .result r := by
      intro r hr
      simp only [step, hengaged, Engagement.result?, hr]
    have hnever : parties.caller.result? = none → (l.step .join).2 = .never := by
      intro hnone
      simp only [step, hengaged, Engagement.result?, hnone]
    have hrunning : (l.step .isRunning).2 = .flag parties.caller.result?.isNone := by
      simp only [step, hengaged, Engagement.result?]
    refine ⟨hbind, ⟨early, events, hran, hasked.symm.trans h.triggered_iff⟩, ?_⟩
    -- There are no requests, so the parties wait for shutdown and return with it.
    by_cases htrigger : .trigger ∈ steps
    · have hcaller := (hserves.returned (h.triggered_iff.2 htrigger)).1
      have hdone : (l.step .join).2 = .result .done := hjoined .done (by rw [hcaller]; rfl)
      refine ⟨fun r => ?_, fun _ => hdone, fun hnot => absurd htrigger hnot, ?_⟩
      · rw [hdone, hcaller, Answer.result.injEq, Caller.returned.injEq]
      · rw [hrunning, hcaller]
        simp [Caller.result?, htrigger]
    · have hstart := hserves.waits (Bool.eq_false_iff.2 fun hasked => htrigger (h.triggered_iff.1 hasked))
      have hwaits : (l.step .join).2 = .never := hnever (by rw [hstart]; rfl)
      refine ⟨fun r => ?_, fun hmem => absurd hmem htrigger, fun _ => hwaits, ?_⟩
      · rw [hwaits, hstart]
        exact iff_of_false nofun nofun
      · rw [hrunning, hstart]
        simp [Caller.result?, State.start, htrigger]

end AgentHost.Life
