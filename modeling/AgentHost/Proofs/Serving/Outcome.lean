import AgentHost.Proofs.Serving.Requests
import Mathlib.Data.Nat.Find
/-!
# How serving ends

A moment of a schedule is in one of three places. Before shutdown is asked for
the caller waits and the task accepts (`Open`). From then on both wait for the
requests in flight (`Draining`), until none is left or the grace window is over
(`Returned`). One lemma for each says what the next moment makes of it, and
`status_from_stop` puts them together.

`serving_outcome`: serving returns well exactly where all requests in flight are
complete before the grace window is over, and with a timeout otherwise.
-/

namespace AgentHost.Serving

/-! ## What both parties do by themselves -/

namespace State
variable {state : State} (grace : Duration)

/-- The caller drains, or is about to. -/
def Stopping (state : State) : Prop :=
  (state.caller = .waiting ∧ state.triggered = true ∧ state.task = .accepting) ∨
    (state.caller = .draining ∧ state.task = .closing)

theorem settle_open (hc : state.caller = .waiting) (ht : state.triggered = false) (hk : state.task = .accepting)
    (hw : state.word = .held) : state.settle grace = state := by
  obtain ⟨triggered, caller, word, words, task, joins, accepted, inFlight, answered⟩ := state
  simp only at hc ht hk hw
  subst hc ht hk hw
  rfl

theorem settle_returned {r : Result} (hc : state.caller = .returned r) (hk : state.isRunning = false) :
    state.settle grace = state := by
  obtain ⟨triggered, caller, word, words, task, joins, accepted, inFlight, answered⟩ := state
  simp only at hc
  subst hc
  cases task with
  | accepting => cases hk
  | closing => cases hk
  | ended failure => rfl
  | aborted => rfl

/-- Without requests in flight a task that has to stop ends, and the caller returns. -/
theorem settle_idle (h : state.Stopping) (hf : state.inFlight = []) :
    (state.settle grace).caller = .returned .done ∧ (state.settle grace).task = .ended none ∧
      Schedule.SameRequests (state.settle grace) state := by
  obtain ⟨triggered, caller, word, words, task, joins, accepted, inFlight, answered⟩ := state
  simp only [Stopping] at h hf
  subst hf
  rcases h with ⟨rfl, rfl, rfl⟩ | ⟨rfl, rfl⟩
  · exact ⟨rfl, rfl, rfl, rfl, rfl⟩
  · cases word <;> exact ⟨rfl, rfl, rfl, rfl, rfl⟩

theorem settle_busy (h : state.Stopping) (hf : state.inFlight ≠ []) :
    (state.settle grace).caller = .draining ∧ (state.settle grace).task = .closing ∧
      Schedule.SameRequests (state.settle grace) state := by
  obtain ⟨triggered, caller, word, words, task, joins, accepted, inFlight, answered⟩ := state
  simp only [Stopping] at h hf
  obtain ⟨n, ns, rfl⟩ := List.exists_cons_of_ne_nil hf
  rcases h with ⟨rfl, rfl, rfl⟩ | ⟨rfl, rfl⟩
  · exact ⟨rfl, rfl, rfl, rfl, rfl⟩
  · cases word <;> exact ⟨rfl, rfl, rfl, rfl, rfl⟩

theorem elapse_returned {r : Result} (hc : state.caller = .returned r) : state.step grace .elapse = state := by
  simp only [step, elapse, hc]

theorem elapse_draining (hc : state.caller = .draining) (hk : state.task = .closing) :
    (state.step grace .elapse).caller = .returned (.failed (.shutdownTimeout grace)) ∧
      (state.step grace .elapse).task = .aborted ∧ Schedule.SameRequests (state.step grace .elapse) state := by
  obtain ⟨triggered, caller, word, words, task, joins, accepted, inFlight, answered⟩ := state
  simp only at hc hk
  subst hc hk
  cases word <;> exact ⟨rfl, rfl, rfl, rfl, rfl⟩

end State

/-! ## When shutdown is asked for -/

namespace Schedule

/-- When shutdown begins: at once where it was asked for before, or else with the
first trigger. -/
def stop? (s : Schedule) : Option Nat := if s.early then some 0 else s.triggers.min?

/-- Shutdown was asked for before a time. -/
def asked (s : Schedule) (t : Nat) : Bool := s.early || s.triggers.any (· < t)

variable {s : Schedule} {stop t : Nat} {m : Moment}

theorem asked_succ (s : Schedule) (t : Nat) : s.asked (t + 1) = (s.asked t || s.triggers.contains t) := by
  rw [asked, asked, Bool.or_assoc, Bool.eq_iff_iff]
  simp only [Bool.or_eq_true, List.any_eq_true, decide_eq_true_eq, List.contains_iff_mem, Nat.lt_succ_iff_lt_or_eq]
  refine or_congr_right ⟨?_, ?_⟩
  · rintro ⟨u, hu, hlt | rfl⟩
    · exact .inl ⟨u, hu, hlt⟩
    · exact .inr hu
  · rintro (⟨u, hu, hlt⟩ | hu)
    · exact ⟨u, hu, .inl hlt⟩
    · exact ⟨t, hu, .inr rfl⟩

theorem asked_iff (s : Schedule) (t : Nat) : s.asked (t + 1) = true ↔ ∃ stop, s.stop? = some stop ∧ stop ≤ t := by
  cases he : s.early with
  | true => simp [asked, stop?, he]
  | false =>
    simp only [asked, stop?, he, Bool.false_or, List.any_eq_true, decide_eq_true_eq, Bool.false_eq_true, if_false]
    constructor
    · rintro ⟨u, hu, hlt⟩
      obtain ⟨stop, hstop⟩ := Option.isSome_iff_exists.1 (List.isSome_min?_of_mem hu)
      have hle := (List.min?_eq_some_iff.1 hstop).2 u hu
      exact ⟨stop, hstop, by omega⟩
    · rintro ⟨stop, hstop, hle⟩
      exact ⟨stop, (List.min?_eq_some_iff.1 hstop).1, by omega⟩

/-! ## The places of a moment -/

/-- Before time `t` nobody has asked for shutdown. -/
structure Open (s : Schedule) (t : Nat) (m : Moment) : Prop where
  caller : m.state.caller = .waiting
  task : m.state.task = .accepting
  word : m.state.word = .held
  triggered : m.state.triggered = s.asked t
  since : m.since = none
  holds : s.Holds t t m.state

/-- Both parties have waited since `stop` for the requests that were let in by then. -/
structure Draining (s : Schedule) (stop t : Nat) (m : Moment) : Prop where
  caller : m.state.caller = .draining
  task : m.state.task = .closing
  since : m.since = some stop
  holds : s.Holds (stop + 1) t m.state

/-- The caller has returned, and the task is over. -/
structure Returned (s : Schedule) (stop t : Nat) (r : Result) (m : Moment) : Prop where
  caller : m.state.caller = .returned r
  task : m.state.isRunning = false
  holds : s.Holds (stop + 1) t m.state

/-- A request that came by `stop` is not complete at time `t`. -/
def Busy (s : Schedule) (stop t : Nat) : Prop := ∃ v ∈ s.visits, v.start ≤ stop ∧ t < v.finish

theorem Busy.mono {u : Nat} (h : s.Busy stop u) (htu : t ≤ u) : s.Busy stop t := by
  obtain ⟨v, hv, hstart, hlt⟩ := h
  exact ⟨v, hv, hstart, by omega⟩

theorem Holds.busy_iff {state : State} (h : s.Holds (stop + 1) (t + 1) state) :
    state.inFlight ≠ [] ↔ s.Busy stop t := by
  constructor
  · intro hne
    obtain ⟨n, hn⟩ := List.exists_mem_of_ne_nil _ hne
    obtain ⟨v, hv, hlt, hle⟩ := (h.inFlight n).1 hn
    exact ⟨v, List.mem_of_getElem? hv, by omega, by omega⟩
  · rintro ⟨v, hv, hstart, hlt⟩ hnil
    obtain ⟨n, hn⟩ := List.mem_iff_getElem?.1 hv
    have hmem := (h.inFlight n).2 ⟨v, hn, by omega, by omega⟩
    rw [hnil] at hmem
    cases hmem

/-! ## The next moment -/

theorem advance_open (h : s.Open t m) (hask : s.asked (t + 1) = false) : s.Open (t + 1) (s.advance t m) := by
  obtain ⟨hholds, ⟨hcaller, htask, hword⟩, htrig⟩ := run_events h.holds fun _ => rfl
  rw [if_pos h.task] at hholds
  rw [h.triggered, ← asked_succ] at htrig
  rw [h.caller] at hcaller
  rw [h.task] at htask
  have hadvance : s.advance t m = ⟨m.state.run s.grace (s.events t), none⟩ := by
    simp only [advance, State.settle_open s.grace hcaller (htrig.trans hask) htask (hword.trans h.word), h.since,
      drainStart, hcaller, isOver, Bool.false_eq_true, if_false]
  rw [hadvance]
  exact ⟨hcaller, htask, hword.trans h.word, htrig, rfl, hholds⟩

theorem advance_returned {r : Result} (h : s.Returned stop t r m) : s.Returned stop (t + 1) r (s.advance t m) := by
  have hclosed : m.state.task ≠ .accepting := fun hk => by
    have hrun := h.task
    rw [State.isRunning, hk] at hrun
    cases hrun
  obtain ⟨hholds, ⟨hcaller, htask, -⟩, -⟩ := run_events h.holds fun hk => absurd hk hclosed
  rw [if_neg hclosed] at hholds
  rw [h.caller] at hcaller
  have hrun : (m.state.run s.grace (s.events t)).isRunning = false := by
    rw [← h.task, State.isRunning, htask]
    rfl
  have hstate : (s.advance t m).state = m.state.run s.grace (s.events t) := by
    simp only [advance, State.settle_returned s.grace hcaller hrun, State.elapse_returned s.grace hcaller]
    split <;> rfl
  exact ⟨hstate ▸ hcaller, hstate ▸ hrun, hstate ▸ hholds⟩

/-- The moment where shutdown begins, and each one of draining. -/
theorem advance_stopping (h : (s.Open stop m ∧ t = stop ∧ s.stop? = some stop) ∨ s.Draining stop t m) :
    (¬ s.Busy stop t → s.Returned stop (t + 1) .done (s.advance t m)) ∧
      (s.Busy stop t → stop + s.grace.millis ≤ t →
        s.Returned stop (t + 1) (.failed (.shutdownTimeout s.grace)) (s.advance t m)) ∧
      (s.Busy stop t → t < stop + s.grace.millis → s.Draining stop (t + 1) (s.advance t m)) := by
  -- Behind the events both kinds of moments are the same.
  obtain ⟨hholds, hstopping, hsince⟩ : s.Holds (stop + 1) (t + 1) (m.state.run s.grace (s.events t)) ∧
      (m.state.run s.grace (s.events t)).Stopping ∧ (m.since = none ∧ t = stop ∨ m.since = some stop) := by
    rcases h with ⟨ho, rfl, hstop⟩ | hd
    · obtain ⟨hholds, ⟨hcaller, htask, -⟩, htrig⟩ := run_events ho.holds fun _ => rfl
      rw [if_pos ho.task] at hholds
      rw [ho.triggered, ← asked_succ, (asked_iff s t).2 ⟨t, hstop, Nat.le_refl t⟩] at htrig
      exact ⟨hholds, .inl ⟨hcaller.trans ho.caller, htrig, htask.trans ho.task⟩, .inl ⟨ho.since, rfl⟩⟩
    · have hclosed : m.state.task ≠ .accepting := by rw [hd.task]; nofun
      obtain ⟨hholds, ⟨hcaller, htask, -⟩, -⟩ := run_events hd.holds fun hk => absurd hk hclosed
      rw [if_neg hclosed] at hholds
      exact ⟨hholds, .inr ⟨hcaller.trans hd.caller, htask.trans hd.task⟩, .inr hd.since⟩
  rw [← hholds.busy_iff]
  refine ⟨fun hidle => ?_, fun hbusy hover => ?_, fun hbusy hlt => ?_⟩
  · obtain ⟨hcaller, htask, hsame⟩ := State.settle_idle s.grace hstopping (Decidable.of_not_not hidle)
    have hstate : (s.advance t m).state = (m.state.run s.grace (s.events t)).settle s.grace := by
      simp only [advance, State.elapse_returned s.grace hcaller]
      split <;> rfl
    refine ⟨hstate ▸ hcaller, ?_, hstate ▸ hholds.congr hsame⟩
    rw [hstate, State.isRunning, htask]
  all_goals
    obtain ⟨hcaller, htask, hsame⟩ := State.settle_busy s.grace hstopping hbusy
    have hdrain : drainStart m.since t ((m.state.run s.grace (s.events t)).settle s.grace) = some stop := by
      rcases hsince with ⟨hnone, rfl⟩ | hsome
      · simp only [drainStart, hnone, hcaller]
      · simp only [drainStart, hsome]
  · obtain ⟨hret, habort, hsame'⟩ := State.elapse_draining s.grace hcaller htask
    have hadvance : (s.advance t m).state
        = ((m.state.run s.grace (s.events t)).settle s.grace).step s.grace .elapse := by
      simp only [advance, hdrain, isOver, decide_eq_true hover, if_true]
    refine ⟨hadvance ▸ hret, ?_, hadvance ▸ (hholds.congr hsame).congr hsame'⟩
    rw [hadvance, State.isRunning, habort]
  · have hadvance : s.advance t m = ⟨(m.state.run s.grace (s.events t)).settle s.grace, some stop⟩ := by
      simp only [advance, hdrain, isOver, decide_eq_false (Nat.not_le.2 hlt), Bool.false_eq_true, if_false]
    rw [hadvance]
    exact ⟨hcaller, htask, rfl, hholds.congr hsame⟩

/-! ## All moments -/

/-- What is there before a moment. -/
def before (s : Schedule) : Nat → Moment
  | 0 => ⟨State.start s.early, none⟩
  | t + 1 => s.moment t

theorem moment_eq (s : Schedule) (t : Nat) : s.moment t = s.advance t (s.before t) := by
  cases t <;> rfl

theorem open_before (t : Nat) (h : ∀ stop, s.stop? = some stop → t ≤ stop) : s.Open t (s.before t) := by
  induction t with
  | zero => exact ⟨rfl, rfl, rfl, by simp [before, State.start, asked], rfl, holds_start s _⟩
  | succ t ih =>
    have hask : s.asked (t + 1) = false := by
      rw [← Bool.not_eq_true, asked_iff]
      rintro ⟨stop, hstop, hle⟩
      have := h stop hstop
      omega
    rw [before, moment_eq]
    exact advance_open (ih fun stop hstop => Nat.le_of_succ_le (h stop hstop)) hask

/-- Where a moment is from the stop on: the requests that came by then decide, as
far as they are watched. -/
theorem status_from_stop (hstop : s.stop? = some stop) (ht : stop ≤ t) :
    (¬ s.Busy stop (min t (stop + s.grace.millis)) → s.Returned stop (t + 1) .done (s.moment t)) ∧
      (s.Busy stop (min t (stop + s.grace.millis)) → stop + s.grace.millis ≤ t →
        s.Returned stop (t + 1) (.failed (.shutdownTimeout s.grace)) (s.moment t)) ∧
      (s.Busy stop (min t (stop + s.grace.millis)) → t < stop + s.grace.millis →
        s.Draining stop (t + 1) (s.moment t)) := by
  induction t, ht using Nat.le_induction with
  | base =>
    have hopen : s.Open stop (s.before stop) := open_before stop fun u hu => by
      rw [hstop] at hu
      cases hu
      exact Nat.le_refl _
    rw [Nat.min_eq_left (Nat.le_add_right _ _), moment_eq]
    exact advance_stopping (.inl ⟨hopen, rfl, hstop⟩)
  | succ t ht ih =>
    obtain ⟨hidle, hover, hdrain⟩ := ih
    rw [show s.moment (t + 1) = s.advance (t + 1) (s.moment t) from rfl]
    by_cases hbusy : s.Busy stop (min t (stop + s.grace.millis))
    · rcases Nat.lt_or_ge t (stop + s.grace.millis) with hlt | hge
      · rw [Nat.min_eq_left hlt]
        exact advance_stopping (.inr (hdrain hbusy hlt))
      · -- Behind the deadline no request is watched any more, and the result stays.
        rw [Nat.min_eq_right hge] at hbusy
        rw [Nat.min_eq_right (Nat.le_succ_of_le hge)]
        refine ⟨fun hnot => absurd hbusy hnot, fun _ _ => ?_, fun _ hlt => absurd hlt (by omega)⟩
        exact advance_returned (hover (by rwa [Nat.min_eq_right hge]) hge)
    · have hnot : ¬ s.Busy stop (min (t + 1) (stop + s.grace.millis)) := fun hb => hbusy (hb.mono (by omega))
      exact ⟨fun _ => advance_returned (hidle hbusy), fun hb => absurd hb hnot, fun hb => absurd hb hnot⟩

/-! ## Results -/

theorem Open.result? (h : s.Open (t + 1) (s.moment t)) : s.result? t = none := by
  rw [Schedule.result?, h.caller]; rfl

theorem Draining.result? (h : s.Draining stop (t + 1) (s.moment t)) : s.result? t = none := by
  rw [Schedule.result?, h.caller]; rfl

theorem Returned.result? {r : Result} (h : s.Returned stop (t + 1) r (s.moment t)) : s.result? t = some r := by
  rw [Schedule.result?, h.caller]; rfl

/-- Serving returns a result at a time, and not before. -/
def Returns (s : Schedule) (t : Nat) (r : Result) : Prop :=
  (∀ u < t, s.result? u = none) ∧ ∀ u, t ≤ u → s.result? u = some r

/-- The requests in flight when shutdown begins. -/
def pending (s : Schedule) (stop : Nat) : List Visit := s.visits.filter fun v => v.start ≤ stop ∧ stop < v.finish

theorem busy_deadline_iff (s : Schedule) (stop : Nat) :
    s.Busy stop (stop + s.grace.millis) ↔ ∃ v ∈ s.pending stop, stop + s.grace.millis < v.finish := by
  simp only [Busy, pending, List.mem_filter, decide_eq_true_eq]
  constructor
  · rintro ⟨v, hv, hstart, hlt⟩
    exact ⟨v, ⟨hv, hstart, by omega⟩, hlt⟩
  · rintro ⟨v, ⟨hv, hstart, -⟩, hlt⟩
    exact ⟨v, hv, hstart, hlt⟩

theorem open_moment (ht : ∀ stop, s.stop? = some stop → t < stop) : s.Open (t + 1) (s.moment t) :=
  open_before (t + 1) ht

theorem returns_timeout (hstop : s.stop? = some stop) (hbusy : s.Busy stop (stop + s.grace.millis)) :
    s.Returns (stop + s.grace.millis) (.failed (.shutdownTimeout s.grace)) := by
  refine ⟨fun u hu => ?_, fun u hu => ?_⟩
  · rcases Nat.lt_or_ge u stop with hlt | hge
    · exact (open_moment fun v hv => by rw [hstop] at hv; cases hv; exact hlt).result?
    · exact ((status_from_stop hstop hge).2.2 (hbusy.mono (by omega)) hu).result?
  · exact ((status_from_stop hstop (by omega)).2.1 (hbusy.mono (by omega)) hu).result?

theorem returns_done (hstop : s.stop? = some stop) (hidle : ¬ s.Busy stop (stop + s.grace.millis)) :
    ∃ t, stop ≤ t ∧ t ≤ stop + s.grace.millis ∧ s.Returns t .done := by
  classical
  -- The first moment at which no request is left.
  have hex : ∃ t, stop ≤ t ∧ ¬ s.Busy stop t := ⟨_, Nat.le_add_right _ _, hidle⟩
  obtain ⟨hge, hfirst⟩ := Nat.find_spec hex
  have hle : Nat.find hex ≤ stop + s.grace.millis := Nat.find_min' hex ⟨Nat.le_add_right _ _, hidle⟩
  refine ⟨Nat.find hex, hge, hle, fun u hu => ?_, fun u hu => ?_⟩
  · rcases Nat.lt_or_ge u stop with hlt | hstopu
    · exact (open_moment fun v hv => by rw [hstop] at hv; cases hv; exact hlt).result?
    · have hbusy : s.Busy stop u := Classical.not_not.1 fun hnot => Nat.find_min hex hu ⟨hstopu, hnot⟩
      exact ((status_from_stop hstop hstopu).2.2 (hbusy.mono (by omega)) (by omega)).result?
  · exact ((status_from_stop hstop (by omega)).1 fun hb => hfirst (hb.mono (by omega))).result?

/-- A result of `done` tells that the requests let in were complete by then. -/
theorem not_busy_of_done (hstop : s.stop? = some stop) (hdone : s.result? t = some .done) :
    stop ≤ t ∧ ¬ s.Busy stop (min t (stop + s.grace.millis)) := by
  rcases Nat.lt_or_ge t stop with hlt | hge
  · have hnone := (open_moment fun v hv => by rw [hstop] at hv; cases hv; exact hlt).result?
    rw [hdone] at hnone
    cases hnone
  · refine ⟨hge, fun hbusy => ?_⟩
    rcases Nat.lt_or_ge t (stop + s.grace.millis) with hlt | hover
    · have hnone := ((status_from_stop hstop hge).2.2 hbusy hlt).result?
      rw [hdone] at hnone
      cases hnone
    · have hfailed := ((status_from_stop hstop hge).2.1 hbusy hover).result?
      rw [hdone] at hfailed
      cases hfailed

theorem accepted_iff (hstop : s.stop? = some stop) {n : Nat} {v : Visit} (hv : s.visits[n]? = some v) (t : Nat) :
    n ∈ (s.moment t).state.accepted ↔ v.start ≤ t ∧ v.start ≤ stop := by
  have hholds : s.Holds (min t stop + 1) (t + 1) (s.moment t).state := by
    rcases Nat.lt_or_ge t stop with hlt | hge
    · rw [Nat.min_eq_left (by omega)]
      exact (open_moment fun u hu => by rw [hstop] at hu; cases hu; exact hlt).holds
    · rw [Nat.min_eq_right hge]
      obtain ⟨hidle, hover, hdrain⟩ := status_from_stop hstop hge
      by_cases hb : s.Busy stop (min t (stop + s.grace.millis))
      · rcases Nat.lt_or_ge t (stop + s.grace.millis) with hlt | hle
        · exact (hdrain hb hlt).holds
        · exact (hover hb hle).holds
      · exact (hidle hb).holds
  rw [hholds.accepted, hv]
  simp only [Option.some.injEq, exists_eq_left']
  omega

/-- However requests and triggers fall, with no request in flight that completes just
at the deadline:
* serving does not return before shutdown is asked for;
* it returns `done` exactly where every request in flight at that time is complete
  less than the grace window later;
* where it has returned `done`, every request that came by then has its answer;
* otherwise it returns a timeout with the grace window, when that is over;
* a request is accepted exactly if it comes no later than the stop. -/
theorem serving_outcome (s : Schedule)
    (hties : ∀ stop, s.stop? = some stop → ∀ v ∈ s.pending stop, v.finish ≠ stop + s.grace.millis) :
    (∀ t, (∀ stop, s.stop? = some stop → t < stop) → s.result? t = none) ∧
    ∀ stop, s.stop? = some stop →
      ((∃ t, stop ≤ t ∧ t ≤ stop + s.grace.millis ∧ s.Returns t .done) ↔
        ∀ v ∈ s.pending stop, v.finish < stop + s.grace.millis) ∧
      (∀ t, s.result? t = some .done →
        ∀ n v, s.visits[n]? = some v → v.start ≤ stop → n ∈ (s.moment t).state.answered) ∧
      ((¬ ∀ v ∈ s.pending stop, v.finish < stop + s.grace.millis) →
        s.Returns (stop + s.grace.millis) (.failed (.shutdownTimeout s.grace))) ∧
      ∀ n v, s.visits[n]? = some v → ∀ t, n ∈ (s.moment t).state.accepted ↔ v.start ≤ t ∧ v.start ≤ stop := by
  refine ⟨fun t ht => (open_moment ht).result?, fun stop hstop => ?_⟩
  -- No request completes just at the deadline, so each is before it or behind it.
  have hidle : (∀ v ∈ s.pending stop, v.finish < stop + s.grace.millis) ↔
      ¬ s.Busy stop (stop + s.grace.millis) := by
    rw [busy_deadline_iff]
    constructor
    · rintro hin ⟨v, hv, hlt⟩
      have := hin v hv
      omega
    · intro hnot v hv
      have hne := hties stop hstop v hv
      have hle : ¬ stop + s.grace.millis < v.finish := fun hlt => hnot ⟨v, hv, hlt⟩
      omega
  refine ⟨?_, fun t hdone n v hv hstart => ?_, fun hlate => ?_, fun n v hv t => accepted_iff hstop hv t⟩
  · rw [hidle]
    refine ⟨fun ⟨t, hge, hle, hret⟩ hbusy => ?_, returns_done hstop⟩
    have hboth := (hret.2 _ hle).symm.trans ((returns_timeout hstop hbusy).2 _ (Nat.le_refl _))
    cases hboth
  · obtain ⟨hge, hnot⟩ := not_busy_of_done hstop hdone
    have hcomplete : v.finish ≤ min t (stop + s.grace.millis) :=
      Nat.not_lt.1 fun hlt => hnot ⟨v, List.mem_of_getElem? hv, hstart, hlt⟩
    exact ((status_from_stop hstop hge).1 hnot).holds.answered n |>.2 ⟨v, hv, by omega, by omega⟩
  · rw [hidle, Classical.not_not] at hlate
    exact returns_timeout hstop hlate

/-- Two requests overlap; one is complete in time, one comes after the stop. -/
def twoVisits : Schedule := ⟨[⟨1, 6, by decide⟩, ⟨4, 9, by decide⟩], false, [3, 5], ⟨10⟩⟩

theorem serving_outcome_twoVisits :
    (∀ stop, twoVisits.stop? = some stop → ∀ v ∈ twoVisits.pending stop, v.finish ≠ stop + twoVisits.grace.millis) ∧
      ∃ t, 3 ≤ t ∧ t ≤ 13 ∧ twoVisits.Returns t .done := by
  have hstop : twoVisits.stop? = some 3 := rfl
  have hties : ∀ stop, twoVisits.stop? = some stop →
      ∀ v ∈ twoVisits.pending stop, v.finish ≠ stop + twoVisits.grace.millis := by
    intro stop h
    rw [hstop] at h
    cases h
    decide
  exact ⟨hties, (serving_outcome twoVisits hties).2 3 hstop |>.1.2 (by decide)⟩

end Schedule

end AgentHost.Serving
