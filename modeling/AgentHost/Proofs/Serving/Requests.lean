import AgentHost.Serving.Timeline
import Mathlib.Tactic.Tauto
/-!
# The requests of a schedule

What the events of a moment do to the lists of requests. `Schedule.Holds s gate t`
says that a state has let in the requests that came before `gate`, and no others,
and has answered those whose responses were complete before `t`. Arrivals move the
gate only while the task accepts; finishes move the time in any case.
-/

namespace AgentHost.Serving

/-! ## Events of one kind -/

namespace State
variable (grace : Duration) (s : State)

theorem run_append (events more : List Event) :
    s.run grace (events ++ more) = (s.run grace events).run grace more :=
  List.foldl_append

theorem run_arrive_accepting (h : s.task = .accepting) (ns : List Nat) :
    s.run grace (ns.map .arrive) = { s with accepted := s.accepted ++ ns, inFlight := s.inFlight ++ ns } := by
  induction ns generalizing s with
  | nil => simp [run]
  | cons n ns ih =>
    have hstep : s.step grace (.arrive n)
        = { s with accepted := s.accepted ++ [n], inFlight := s.inFlight ++ [n] } := by
      simp only [step, h]
    change (s.step grace (.arrive n)).run grace (ns.map .arrive) = _
    rw [hstep]
    refine (ih _ ?_).trans ?_
    · exact h
    · simp

theorem run_arrive_closed (h : s.task ≠ .accepting) (ns : List Nat) : s.run grace (ns.map .arrive) = s := by
  induction ns with
  | nil => rfl
  | cons n ns ih =>
    have hstep : s.step grace (.arrive n) = s := by
      simp only [step]
      split
      · exact absurd ‹_› h
      all_goals rfl
    change (s.step grace (.arrive n)).run grace (ns.map .arrive) = s
    rw [hstep, ih]

/-- Finishing moves requests from those in flight to those that are answered. -/
theorem run_finish (hn : s.inFlight.Nodup) (ns : List Nat) :
    ∃ inFlight answered, s.run grace (ns.map .finish) = { s with inFlight := inFlight, answered := answered } ∧
      inFlight.Nodup ∧ (∀ n, n ∈ inFlight ↔ n ∈ s.inFlight ∧ n ∉ ns) ∧
      ∀ n, n ∈ answered ↔ n ∈ s.answered ∨ n ∈ s.inFlight ∧ n ∈ ns := by
  induction ns generalizing s with
  | nil => exact ⟨s.inFlight, s.answered, rfl, hn, by simp, by simp⟩
  | cons m ns ih =>
    change ∃ inFlight answered, (s.step grace (.finish m)).run grace (ns.map .finish) = _ ∧ _
    -- A request that is not in flight finishes unnoticed.
    by_cases hm : m ∈ s.inFlight
    · have hstep : s.step grace (.finish m)
          = { s with inFlight := s.inFlight.erase m, answered := s.answered ++ [m] } := by
        simp only [step, hm, if_true]
      rw [hstep]
      obtain ⟨inFlight, answered, hrun, hnodup, hflight, hanswered⟩ :=
        ih { s with inFlight := s.inFlight.erase m, answered := s.answered ++ [m] } (hn.erase m)
      refine ⟨inFlight, answered, hrun, hnodup, fun n => ?_, fun n => ?_⟩
      · rw [hflight, hn.mem_erase_iff, List.mem_cons]
        tauto
      · rw [hanswered, hn.mem_erase_iff, List.mem_append, List.mem_singleton, List.mem_cons]
        by_cases hnm : n = m
        · subst hnm; tauto
        · tauto
    · have hstep : s.step grace (.finish m) = s := by simp only [step, hm, if_false]
      rw [hstep]
      obtain ⟨inFlight, answered, hrun, hnodup, hflight, hanswered⟩ := ih s hn
      refine ⟨inFlight, answered, hrun, hnodup, fun n => ?_, fun n => ?_⟩
      · rw [hflight, List.mem_cons]
        by_cases hnm : n = m
        · subst hnm; tauto
        · tauto
      · rw [hanswered, List.mem_cons]
        by_cases hnm : n = m
        · subst hnm; tauto
        · tauto

end State

/-! ## Who is in flight -/

namespace Schedule
variable {s : Schedule} {gate t : Nat} {state : State}

theorem mem_numbered (s : Schedule) (n : Nat) (v : Visit) : (n, v) ∈ s.numbered ↔ s.visits[n]? = some v := by
  simp only [numbered, List.mem_map, Prod.exists, Prod.mk.injEq]
  constructor
  · rintro ⟨v, n, hmem, rfl, rfl⟩
    exact List.mem_zipIdx_iff_getElem?.1 hmem
  · exact fun h => ⟨v, n, List.mem_zipIdx_iff_getElem?.2 h, rfl, rfl⟩

theorem nodup_numbered (s : Schedule) : (s.numbered.map (·.1)).Nodup := by
  have hnumbers : s.numbered.map (·.1) = List.range' 0 s.visits.length := by
    rw [numbered, List.map_map, ← List.zipIdx_map_snd 0 s.visits]
    rfl
  rw [hnumbers]
  exact List.nodup_range'

theorem mem_coming (s : Schedule) (t n : Nat) : n ∈ s.coming t ↔ ∃ v, s.visits[n]? = some v ∧ v.start = t := by
  simp only [coming, List.mem_map, List.mem_filter, decide_eq_true_eq, Prod.exists, mem_numbered]
  exact ⟨fun ⟨_, v, h, hn⟩ => hn ▸ ⟨v, h⟩, fun ⟨v, h⟩ => ⟨n, v, h, rfl⟩⟩

theorem mem_leaving (s : Schedule) (t n : Nat) : n ∈ s.leaving t ↔ ∃ v, s.visits[n]? = some v ∧ v.finish = t := by
  simp only [leaving, List.mem_map, List.mem_filter, decide_eq_true_eq, Prod.exists, mem_numbered]
  exact ⟨fun ⟨_, v, h, hn⟩ => hn ▸ ⟨v, h⟩, fun ⟨v, h⟩ => ⟨n, v, h, rfl⟩⟩

theorem nodup_coming (s : Schedule) (t : Nat) : (s.coming t).Nodup :=
  (nodup_numbered s).sublist (List.filter_sublist.map _)

/-- The state has let in exactly the requests that came before `gate`, and has
answered exactly those of them whose responses were complete before `t`. -/
structure Holds (s : Schedule) (gate t : Nat) (state : State) : Prop where
  accepted : ∀ n, n ∈ state.accepted ↔ ∃ v, s.visits[n]? = some v ∧ v.start < gate
  inFlight : ∀ n, n ∈ state.inFlight ↔ ∃ v, s.visits[n]? = some v ∧ v.start < gate ∧ t ≤ v.finish
  answered : ∀ n, n ∈ state.answered ↔ ∃ v, s.visits[n]? = some v ∧ v.start < gate ∧ v.finish < t
  nodup : state.inFlight.Nodup

theorem holds_start (s : Schedule) (triggered : Bool) : s.Holds 0 0 (State.start triggered) := by
  constructor <;> simp [State.start]

/-- The states have the same requests. -/
def SameRequests (a b : State) : Prop :=
  a.accepted = b.accepted ∧ a.inFlight = b.inFlight ∧ a.answered = b.answered

theorem Holds.congr {state' : State} (h : s.Holds gate t state) (hs : SameRequests state' state) :
    s.Holds gate t state' := by
  obtain ⟨hacc, hfl, hans⟩ := hs
  exact ⟨hacc ▸ h.accepted, hfl ▸ h.inFlight, hans ▸ h.answered, hfl ▸ h.nodup⟩

theorem holds_coming (h : s.Holds t t state) (hacc : state.task = .accepting) :
    s.Holds (t + 1) t (state.run s.grace ((s.coming t).map .arrive)) := by
  rw [State.run_arrive_accepting _ _ hacc]
  refine ⟨fun n => ?_, fun n => ?_, fun n => ?_, ?_⟩
  · rw [List.mem_append, h.accepted, mem_coming]
    constructor
    · rintro (⟨v, hv, hlt⟩ | ⟨v, hv, rfl⟩)
      · exact ⟨v, hv, by omega⟩
      · exact ⟨v, hv, by omega⟩
    · rintro ⟨v, hv, hlt⟩
      rcases Nat.lt_succ_iff_lt_or_eq.1 hlt with hlt | heq
      · exact .inl ⟨v, hv, hlt⟩
      · exact .inr ⟨v, hv, heq⟩
  · rw [List.mem_append, h.inFlight, mem_coming]
    constructor
    · rintro (⟨v, hv, hlt, hle⟩ | ⟨v, hv, rfl⟩)
      · exact ⟨v, hv, by omega, hle⟩
      · exact ⟨v, hv, by omega, v.isOrdered⟩
    · rintro ⟨v, hv, hlt, hle⟩
      rcases Nat.lt_succ_iff_lt_or_eq.1 hlt with hlt | heq
      · exact .inl ⟨v, hv, hlt, hle⟩
      · exact .inr ⟨v, hv, heq⟩
  · rw [h.answered]
    constructor
    · rintro ⟨v, hv, hlt, hfin⟩
      exact ⟨v, hv, by omega, hfin⟩
    · rintro ⟨v, hv, -, hfin⟩
      exact ⟨v, hv, Nat.lt_of_le_of_lt v.isOrdered hfin, hfin⟩
  · refine List.nodup_append.2 ⟨h.nodup, nodup_coming s t, ?_⟩
    rintro n hn _ hm rfl
    obtain ⟨v, hv, hlt, -⟩ := (h.inFlight n).1 hn
    obtain ⟨v', hv', heq⟩ := (mem_coming s t n).1 hm
    obtain rfl : v = v' := Option.some.inj (hv.symm.trans hv')
    omega

theorem holds_leaving (h : s.Holds gate t state) :
    s.Holds gate (t + 1) (state.run s.grace ((s.leaving t).map .finish)) ∧
      ∃ inFlight answered, state.run s.grace ((s.leaving t).map .finish)
        = { state with inFlight := inFlight, answered := answered } := by
  obtain ⟨inFlight, answered, hrun, hnodup, hflight, hanswered⟩ := state.run_finish s.grace h.nodup (s.leaving t)
  rw [hrun]
  refine ⟨⟨h.accepted, fun n => ?_, fun n => ?_, hnodup⟩, inFlight, answered, rfl⟩
  · rw [hflight, h.inFlight, mem_leaving]
    constructor
    · rintro ⟨⟨v, hv, hlt, hle⟩, hnot⟩
      exact ⟨v, hv, hlt, Nat.lt_of_le_of_ne hle fun heq => hnot ⟨v, hv, heq.symm⟩⟩
    · rintro ⟨v, hv, hlt, hle⟩
      refine ⟨⟨v, hv, hlt, by omega⟩, fun ⟨v', hv', heq⟩ => ?_⟩
      obtain rfl : v = v' := Option.some.inj (hv.symm.trans hv')
      omega
  · rw [hanswered, h.answered, h.inFlight, mem_leaving]
    constructor
    · rintro (⟨v, hv, hlt, hfin⟩ | ⟨⟨v, hv, hlt, hle⟩, v', hv', heq⟩)
      · exact ⟨v, hv, hlt, by omega⟩
      · obtain rfl : v = v' := Option.some.inj (hv.symm.trans hv')
        exact ⟨v, hv, hlt, by omega⟩
    · rintro ⟨v, hv, hlt, hfin⟩
      rcases Nat.lt_succ_iff_lt_or_eq.1 hfin with hfin | heq
      · exact .inl ⟨v, hv, hlt, hfin⟩
      · exact .inr ⟨⟨v, hv, hlt, by omega⟩, v, hv, heq⟩

/-! ## The events of a moment -/

/-- The parties are where they were. -/
def SameParties (a b : State) : Prop := a.caller = b.caller ∧ a.task = b.task ∧ a.word = b.word

theorem run_triggers (s : Schedule) (t : Nat) (state : State) :
    state.run s.grace (if s.triggers.contains t then [.trigger] else [])
      = { state with triggered := state.triggered || s.triggers.contains t } := by
  cases s.triggers.contains t
  · rw [Bool.or_false]; rfl
  · rw [Bool.or_true]; rfl

/-- The gate behind a moment. Only a task that accepts moves it. -/
theorem run_events (h : s.Holds gate t state) (hgate : state.task = .accepting → gate = t) :
    s.Holds (if state.task = .accepting then t + 1 else gate) (t + 1) (state.run s.grace (s.events t)) ∧
      SameParties (state.run s.grace (s.events t)) state ∧
      (state.run s.grace (s.events t)).triggered = (state.triggered || s.triggers.contains t) := by
  have hcoming : s.Holds (if state.task = .accepting then t + 1 else gate) t
      (state.run s.grace ((s.coming t).map .arrive)) ∧
      SameParties (state.run s.grace ((s.coming t).map .arrive)) state ∧
      (state.run s.grace ((s.coming t).map .arrive)).triggered = state.triggered := by
    split
    · -- The gate moves past the requests that come now.
      rename_i hacc
      obtain rfl := hgate hacc
      refine ⟨holds_coming h hacc, ?_⟩
      rw [State.run_arrive_accepting _ _ hacc]
      exact ⟨⟨rfl, rfl, rfl⟩, rfl⟩
    · rename_i hacc
      rw [State.run_arrive_closed _ _ hacc]
      exact ⟨h, ⟨rfl, rfl, rfl⟩, rfl⟩
  obtain ⟨hholds, hsame, htrig⟩ := hcoming
  obtain ⟨hleft, inFlight, answered, hrun⟩ := holds_leaving hholds
  rw [events, State.run_append, State.run_append, run_triggers]
  refine ⟨hleft.congr ⟨rfl, rfl, rfl⟩, ?_, ?_⟩
  · rw [hrun]; exact hsame
  · rw [hrun]; simp only [htrig]

end Schedule

end AgentHost.Serving
