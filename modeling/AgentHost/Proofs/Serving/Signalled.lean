import AgentHost.Proofs.Serving.Stopping
import AgentHost.Proofs.Shutdown.Given
import AgentHost.Serving.Signalled
/-!
# The flag is the signal

`State.triggered` is a flag that a `trigger` event sets. Here it is shown to stand
for the shutdown signal on which the caller waits: with the signal in its place, and
nothing but the polls of a waiter between the two, both parties take the steps of
`State.step`, where a trigger on any handle of that signal is the event `trigger`.

So whatever holds of every run of `State` holds of a server that waits for a signal.
-/

namespace AgentHost.Serving

/-! ## The flag alone -/

namespace State

variable {grace : Duration} {e : Event}

/-- Only the look of the caller depends on the flag. -/
theorem step_flag (s : State) (b : Bool) (htrigger : e ≠ .trigger) (hhear : e ≠ .hear) :
    State.step grace { s with triggered := b } e = { s.step grace e with triggered := b } := by
  obtain ⟨triggered, caller, word, words, task, joins, accepted, inFlight, answered⟩ := s
  cases e with
  | trigger => exact absurd rfl htrigger
  | hear => exact absurd rfl hhear
  | arrive n => cases task <;> rfl
  | finish n =>
    simp only [step]
    split <;> rfl
  | fail failure => cases task <;> rfl
  | observe => cases task <;> cases word <;> rfl
  | close =>
    simp only [step]
    split <;> rfl
  | join => cases caller <;> cases task <;> cases word <;> rfl
  | elapse => cases caller <;> cases word <;> rfl
  | drop => cases caller <;> cases word <;> rfl

theorem triggered_hear (grace : Duration) (s : State) : (s.step grace .hear).triggered = s.triggered := by
  rw [Bool.eq_iff_iff, triggered_step]
  simp

end State

/-! ## The signal in place of the flag -/

open Shutdown.State (empty)

namespace Signalled

variable {grace : Duration} {waiter : String} {n : Nat} {s : Signalled}

/-- The parties, with the flag of signal `n` in place of what the caller saw of it. -/
def merged (s : Signalled) (n : Nat) : State :=
  { s.parties with triggered := decide (s.signals.ledger.given[n]? = some true) }

/-- What an act is to the parties: a trigger on a handle of signal `n` asks for shutdown. -/
def Act.event? (s : Signalled) (n : Nat) : Act → Option Event
  | .signal (.trigger handle) => if s.signals.signal? handle = some n then some .trigger else none
  | .signal _ | .party .trigger => none
  | .party e => some e

/-- What a run is to the parties. -/
def events (grace : Duration) (waiter : String) (n : Nat) (s : Signalled) : List Act → List Event
  | [] => []
  | a :: acts => (a.event? s n).toList ++ (s.step grace waiter a).events grace waiter n acts

/-- What an act does with the signals. A look of the caller is a poll. -/
def Act.onSignals (waiter : String) : Act → Option Shutdown.Step
  | .signal x => if x.isOn waiter then none else some x
  | .party .hear => some (.poll waiter)
  | .party _ => none

theorem signals_step (a : Act) :
    (s.step grace waiter a).signals = s.signals.after (a.onSignals waiter).toList := by
  cases a with
  | signal x =>
    simp only [step, Act.onSignals]
    split <;> rfl
  | party e => cases e <;> rfl

theorem signals_run (acts : List Act) :
    (s.run grace waiter acts).signals = s.signals.after (acts.filterMap (Act.onSignals waiter)) := by
  induction acts generalizing s with
  | nil => rfl
  | cons a acts ih =>
    have hrun : (s.run grace waiter (a :: acts)).signals = ((s.step grace waiter a).run grace waiter acts).signals := rfl
    rw [hrun, ih, signals_step, List.filterMap_cons]
    cases a.onSignals waiter <;> rfl

/-! ## One step -/

/-- The waiter of the caller is on signal `n`. -/
structure Listens (s : Signalled) (waiter : String) (n : Nat) : Prop where
  consistent : s.signals.Consistent none
  waits : ∃ resolved, s.signals.ledger.waiters.lookup waiter = some (n, resolved)

theorem Listens.waiter? (h : s.Listens waiter n) : ∃ w, s.signals.waiter? waiter = some w ∧ w.channel = n := by
  obtain ⟨resolved, hwaits⟩ := h.waits
  rw [Shutdown.State.lookup_ledger_waiters, Option.map_eq_some_iff] at hwaits
  obtain ⟨w, hw, hsame⟩ := hwaits
  exact ⟨w, hw, (Prod.mk.inj hsame).1⟩

/-- A look finds the signal exactly where it was given. -/
theorem Listens.poll (h : s.Listens waiter n) :
    (s.signals.step (.poll waiter)).2.isResolved = decide (s.signals.ledger.given[n]? = some true) := by
  obtain ⟨w, hw, rfl⟩ := h.waiter?
  obtain ⟨p, hp, hgiven, -⟩ := Shutdown.State.step_poll h.consistent hw
  rw [hp, Shutdown.Answer.isResolved, decide_eq_decide]
  exact hgiven

theorem Listens.signal (h : s.Listens waiter n) {x : Shutdown.Step} (hx : x.isOn waiter = false ∨ x = .poll waiter) :
    ∃ resolved, (s.signals.step x).1.ledger.waiters.lookup waiter = some (n, resolved) := by
  obtain ⟨resolved, hwaits⟩ := h.waits
  rw [(Shutdown.State.step_matches h.consistent x).2.1]
  rcases hx with hx | rfl
  · exact ⟨resolved, (Shutdown.Ledger.lookup_waiters_step _ hx).trans hwaits⟩
  · simp only [Shutdown.Ledger.step, hwaits]
    split
    case h_1 => exact ⟨resolved, hwaits⟩
    case h_2 b _ => exact ⟨b, by simp [Shutdown.Ledger.nameWaiter]⟩

theorem listens_step (h : s.Listens waiter n) (a : Act) : (s.step grace waiter a).Listens waiter n := by
  cases a with
  | signal x =>
    simp only [step]
    split
    case isTrue => exact h
    case isFalse hx =>
      exact ⟨(Shutdown.State.step_matches h.consistent x).1, h.signal (.inl (Bool.eq_false_iff.2 hx))⟩
  | party e =>
    cases e with
    | hear => exact ⟨(Shutdown.State.step_matches h.consistent (.poll waiter)).1, h.signal (.inr rfl)⟩
    | _ => exact ⟨h.consistent, h.waits⟩

/-- A trigger on a handle of signal `n` sets the flag, and nothing else that is done with signals does. -/
theorem merged_signal (h : s.Listens waiter n) (x : Shutdown.Step) :
    merged { s with signals := (s.signals.step x).1 } n =
      (s.merged n).run grace (Act.event? s n (.signal x)).toList := by
  have hflag := Shutdown.State.given_step h.consistent x n
  simp only [merged]
  cases x with
  | trigger handle =>
    simp only [Shutdown.Step.trigger.injEq, exists_eq_left'] at hflag
    simp only [Act.event?]
    split
    case isTrue hsignal =>
      simp only [hflag.2 (.inr hsignal), decide_true]
      rfl
    case isFalse hother =>
      simp only [or_iff_left hother] at hflag
      simp only [hflag]
      rfl
  | _ =>
    simp only [reduceCtorEq, false_and, exists_false, or_false] at hflag
    simp only [hflag]
    rfl

/-- The caller hears with the flag that it finds, and leaves it as it is. -/
theorem merged_look (h : s.Listens waiter n) : (s.look grace waiter).merged n = (s.merged n).step grace .hear := by
  have hflag := Shutdown.State.given_step h.consistent (.poll waiter) n
  simp only [reduceCtorEq, false_and, exists_false, or_false] at hflag
  -- The flag that `merged` puts in place is the one that the caller was handed.
  have hkept := State.triggered_hear grace (s.merged n)
  simp only [look, merged, hflag, h.poll] at hkept ⊢
  generalize decide (s.signals.ledger.given[n]? = some true) = found at hkept ⊢
  show { State.step grace { s.parties with triggered := found } .hear with triggered := found } =
    State.step grace { s.parties with triggered := found } .hear
  generalize State.step grace { s.parties with triggered := found } .hear = parties at hkept ⊢
  rw [← hkept]

/-- An act is for the parties what `Act.event?` says. -/
theorem merged_step (h : s.Listens waiter n) (a : Act) :
    (s.step grace waiter a).merged n = (s.merged n).run grace (a.event? s n).toList := by
  cases a with
  | signal x =>
    by_cases hon : x.isOn waiter = true
    · -- Nobody but the caller is let near its waiter.
      have hnone : Act.event? s n (.signal x) = none := by cases x <;> first | rfl | cases hon
      simp only [step, if_pos hon, hnone]
      rfl
    · simp only [step, if_neg hon]
      exact merged_signal h x
  | party e =>
    by_cases htrigger : e = .trigger
    · subst htrigger
      rfl
    by_cases hhear : e = .hear
    · subst hhear
      exact merged_look h
    · have hstep : s.step grace waiter (.party e) = { s with parties := s.parties.step grace e } := by
        cases e <;> first | rfl | exact absurd rfl ‹_›
      have hevent : Act.event? s n (.party e) = some e := by
        cases e <;> first | rfl | exact absurd rfl ‹_›
      rw [hstep, hevent]
      exact (State.step_flag s.parties _ htrigger hhear).symm

/-! ## Runs -/

theorem listens_run (h : s.Listens waiter n) (acts : List Act) : (s.run grace waiter acts).Listens waiter n := by
  induction acts generalizing s with
  | nil => exact h
  | cons a acts ih => exact ih (listens_step h a)

theorem merged_run (h : s.Listens waiter n) (acts : List Act) :
    (s.run grace waiter acts).merged n = (s.merged n).run grace (s.events grace waiter n acts) := by
  induction acts generalizing s with
  | nil => rfl
  | cons a acts ih =>
    have hrun : s.run grace waiter (a :: acts) = (s.step grace waiter a).run grace waiter acts := rfl
    rw [hrun, ih (listens_step h a), merged_step h a, events, State.run_append]

/-- Serving begins with a waiter on the signal of the handle. -/
theorem listens_start {signals : Shutdown.State} (h : signals.Consistent none) {handle : String}
    (hn : signals.signal? handle = some n) : (start signals waiter handle).Listens waiter n := by
  obtain ⟨hconsistent, hledger, -⟩ := Shutdown.State.step_matches h (.wait waiter handle)
  refine ⟨hconsistent, false, ?_⟩
  obtain ⟨c, hc, -⟩ := h.withHandle_eq hn
  have hgiven : signals.ledger.given[n]? = some c.triggered := by
    rw [Shutdown.State.given_ledger, hc]
    rfl
  have hhandle : signals.ledger.handles.lookup handle = some n := hn
  rw [start, hledger]
  simp only [Shutdown.Ledger.step, Shutdown.Ledger.withHandle, hhandle, hgiven, Shutdown.Ledger.nameWaiter,
    List.lookup_cons_self]

theorem merged_start {signals : Shutdown.State} (h : signals.Consistent none) (waiter handle : String) :
    (start signals waiter handle).merged n = State.start (decide (signals.ledger.given[n]? = some true)) := by
  have hflag := Shutdown.State.given_step h (.wait waiter handle) n
  simp only [reduceCtorEq, false_and, exists_false, or_false] at hflag
  simp only [merged, start, hflag]
  rfl

/-- A server that waits for the signal of a handle, with whatever is done with signals
before and meanwhile:
* its parties have made a run of `State`, which began with shutdown asked for exactly
  where the signal was given before, and in which it has been asked for exactly where
  the signal was given by now;
* a caller that waits and looks drains exactly where the signal was given;
* a caller has returned for a signal only where that was given. -/
theorem serves_until_given (grace : Duration) (before : List Shutdown.Step) {waiter handle : String} {n : Nat}
    (hn : (empty.after before).signal? handle = some n) (acts : List Act) :
    let first := start (empty.after before) waiter handle
    let s := first.run grace waiter acts
    let steps := before ++ .wait waiter handle :: acts.filterMap (Act.onSignals waiter)
    s.signals = empty.after steps ∧
    (∃ early seen, (early = true ↔ empty.Given before n) ∧ (seen = true ↔ empty.Given steps n) ∧
      { s.parties with triggered := seen } = (State.start early).run grace (first.events grace waiter n acts)) ∧
    (s.parties.caller = .waiting →
      ((s.step grace waiter (.party .hear)).parties.caller = .draining ↔ empty.Given steps n)) ∧
    (∀ r, s.parties.caller = .returned r → (r = .done ∨ ∃ g, r = .failed (.shutdownTimeout g)) →
      empty.Given steps n) := by
  intro first s steps
  have hbefore : (empty.after before).Consistent none :=
    Shutdown.State.consistent_after Shutdown.State.consistent_empty before
  have hfirst : first.Listens waiter n := listens_start hbefore hn
  have hlistens : s.Listens waiter n := listens_run hfirst acts
  have hsignals : s.signals = empty.after steps := by
    have hrun : s.signals = first.signals.after (acts.filterMap (Act.onSignals waiter)) := signals_run acts
    rw [hrun, Shutdown.State.after, Shutdown.State.after, List.foldl_append, List.foldl_cons]
    rfl
  have hgiven : s.signals.ledger.given[n]? = some true ↔ empty.Given steps n := by
    rw [hsignals]
    exact Shutdown.State.given_after_empty steps n
  have hmerged : s.merged n = (State.start (decide ((empty.after before).ledger.given[n]? = some true))).run grace
      (first.events grace waiter n acts) := by
    rw [← merged_start hbefore waiter handle]
    exact merged_run hfirst acts
  refine ⟨hsignals, ⟨_, _, ?_, ?_, hmerged⟩, fun hwaiting => ?_, fun r hreturned hasked => ?_⟩
  · rw [decide_eq_true_iff]
    exact Shutdown.State.given_after_empty before n
  · rw [decide_eq_true_iff]
    exact hgiven
  · rw [← hgiven]
    have hlook : (s.step grace waiter (.party .hear)).parties = (s.merged n).step grace .hear := by
      simp only [step, look, merged, hlistens.poll]
    rw [hlook]
    by_cases hfound : s.signals.ledger.given[n]? = some true
    · refine iff_of_true ?_ hfound
      simp only [merged, hfound, decide_true, State.step, State.hear, hwaiting, if_true]
      split <;> rfl
    · refine iff_of_false ?_ hfound
      simp [merged, hfound, State.step, State.hear, hwaiting]
  · -- Who returned for a signal saw the flag, which then stays.
    have hstirred : State.Stirred (s.merged n).caller := by
      show State.Stirred s.parties.caller
      rw [hreturned]
      exact hasked
    have hflag : (s.merged n).triggered = true := by
      rw [hmerged] at hstirred ⊢
      obtain hnone | hheard := State.stirred_run hstirred
      · exact hnone.elim
      · exact (State.triggered_run _).2 hheard.given
    exact hgiven.1 (of_decide_eq_true hflag)

end Signalled

end AgentHost.Serving
