import AgentHost.Proofs.Shutdown.Consistent
/-!
# A signal is never lost and never made up

`Given s steps n` says that a run gave signal `n`: one of its steps was a trigger
on a handle of that signal. `resolves_iff_given` says that handles and waiters show
exactly this, in every run, and that a signal without handles stays as it is.
-/

namespace AgentHost.Shutdown

namespace State

/-- The state behind some steps. -/
def after (s : State) (steps : List Step) : State := steps.foldl (fun s x => (s.step x).1) s

/-- The signal that a handle is on. -/
def signal? (s : State) (name : String) : Option Nat := s.handles.lookup name

/-- The waiter of a name. -/
def waiter? (s : State) (name : String) : Option Waiter := s.waiters.lookup name

/-- One of the steps was a trigger on a handle of the signal. -/
def Given (s : State) (steps : List Step) (n : Nat) : Prop :=
  ∃ before name rest, steps = before ++ .trigger name :: rest ∧ (s.after before).signal? name = some n

variable {s : State} {n : Nat}

theorem given_cons (s : State) (x : Step) (steps : List Step) (n : Nat) :
    s.Given (x :: steps) n ↔ (∃ name, x = .trigger name ∧ s.signal? name = some n) ∨ (s.step x).1.Given steps n := by
  constructor
  · rintro ⟨before, name, rest, he, hs⟩
    cases before with
    | nil =>
      obtain ⟨rfl, rfl⟩ := List.cons.inj he
      exact .inl ⟨name, rfl, hs⟩
    | cons y before =>
      obtain ⟨rfl, rfl⟩ := List.cons.inj he
      exact .inr ⟨before, name, rest, rfl, hs⟩
  · rintro (⟨name, rfl, hs⟩ | ⟨before, name, rest, rfl, hs⟩)
    · exact ⟨[], name, steps, rfl, hs⟩
    · exact ⟨x :: before, name, rest, rfl, hs⟩

theorem consistent_after (h : s.Consistent none) (steps : List Step) : (s.after steps).Consistent none := by
  induction steps generalizing s with
  | nil => exact h
  | cons x steps ih => exact ih (step_matches h x).1

theorem Consistent.placed_ledger (h : s.Consistent none) : s.ledger.Placed := by
  intro name n hl
  rw [show s.ledger.given.length = s.channels.length from List.length_map ..]
  exact h.handle_lt hl

theorem given_step (h : s.Consistent none) (x : Step) (n : Nat) :
    (s.step x).1.ledger.given[n]? = some true ↔
      s.ledger.given[n]? = some true ∨ ∃ name, x = .trigger name ∧ s.signal? name = some n := by
  rw [(step_matches h x).2.1]
  by_cases hx : ∃ name, x = .trigger name
  · obtain ⟨name, rfl⟩ := hx
    rw [Ledger.given_trigger h.placed_ledger]
    simp only [Step.trigger.injEq, exists_eq_left']
    rfl
  · rw [Ledger.given_other _ fun name he => hx ⟨name, he⟩]
    exact ⟨.inl, fun hn => hn.elim id fun ⟨name, he, _⟩ => absurd ⟨name, he⟩ hx⟩

/-- The flag of a signal says whether it was given, by a step or before. -/
theorem given_after (h : s.Consistent none) (steps : List Step) (n : Nat) :
    (s.after steps).ledger.given[n]? = some true ↔ s.ledger.given[n]? = some true ∨ s.Given steps n := by
  induction steps generalizing s with
  | nil =>
    have hnone : ¬ s.Given [] n := fun ⟨before, _, _, he, _⟩ => by cases before <;> cases he
    exact ⟨.inl, fun hn => hn.elim id fun hg => absurd hg hnone⟩
  | cons x steps ih =>
    rw [given_cons, ← or_assoc, ← given_step h x n]
    exact ih (step_matches h x).1

/-- Before a run no signal was given, so the flag says what the run did. -/
theorem given_after_empty (steps : List Step) (n : Nat) :
    (empty.after steps).ledger.given[n]? = some true ↔ empty.Given steps n :=
  (given_after consistent_empty steps n).trans (or_iff_right (by simp [ledger, empty]))

/-- A signal that has no handle is never given any more. -/
theorem silent_after (h : s.Consistent none) (hs : s.ledger.Silent n) (steps : List Step) : ¬ s.Given steps n := by
  induction steps generalizing s with
  | nil => exact fun ⟨before, _, _, he, _⟩ => by cases before <;> cases he
  | cons x steps ih =>
    rw [given_cons]
    obtain ⟨hc, hl, -⟩ := step_matches h x
    rintro (⟨name, -, hn⟩ | hg)
    · exact hs.2 name hn
    · exact ih hc (by rw [hl]; exact Ledger.silent_step x hs) hg

/-! ## What handles and waiters show -/

theorem Consistent.withHandle_eq (h : s.Consistent none) {name : String} (hn : s.signal? name = some n) :
    ∃ c, s.channels[n]? = some c ∧ ∀ f, s.withHandle name f = f n c := by
  have hc := List.getElem?_eq_getElem (h.handle_lt hn)
  refine ⟨_, hc, fun f => ?_⟩
  simp only [withHandle, show s.handles.lookup name = some n from hn, hc]

theorem step_isTriggered (h : s.Consistent none) {name : String} (hn : s.signal? name = some n) :
    ∃ b, (s.step (.isTriggered name)).2 = .flag b ∧ (b = true ↔ s.ledger.given[n]? = some true) := by
  obtain ⟨c, hc, hf⟩ := h.withHandle_eq hn
  refine ⟨c.triggered, by rw [step, hf], ?_⟩
  rw [given_ledger, hc]
  simp

theorem step_poll (h : s.Consistent none) {name : String} {w : Waiter} (hw : s.waiter? name = some w) :
    ∃ p, (s.step (.poll name)).2 = .poll p ∧ (p ≠ .pending ↔ s.ledger.given[w.channel]? = some true) ∧
      (p = .done ↔ w.phase = .resolved) := by
  obtain ⟨c, hc, hfit⟩ := h.seen _ (Ledger.mem_of_lookup hw)
  have hanswer := (Waiter.poll_of_fits hfit).2.2.2
  refine ⟨(w.poll c).2, ?_, ?_, ?_⟩
  · simp only [step, show s.waiters.lookup name = some w from hw, hc]
  · have hresolved : w.hasResolved = true → c.triggered = true := by
      intro hr
      have hphase : w.phase = .resolved := of_decide_eq_true hr
      simpa only [Waiter.Fits, hphase] using hfit
    rw [given_ledger, hc, hanswer]
    cases ht : c.triggered <;> cases hr : w.hasResolved <;> simp_all [Ledger.pollAnswer]
  · rw [hanswer, ← decide_eq_true_iff (p := w.phase = .resolved)]
    change _ ↔ w.hasResolved = true
    cases w.hasResolved <;> cases c.triggered <;> simp [Ledger.pollAnswer]

/-- A second trigger leaves the ledger as it is. -/
theorem ledger_trigger_again (h : s.Consistent none) {name : String} (hn : s.signal? name = some n)
    (hg : s.ledger.given[n]? = some true) : (s.step (.trigger name)).1.ledger = s.ledger := by
  rw [(step_matches h _).2.1]
  simp only [Ledger.step, Ledger.withHandle, show s.ledger.handles.lookup name = some n from hn, hg]
  obtain ⟨hlt, hget⟩ := List.getElem?_eq_some_iff.1 hg
  rw [show s.ledger.given.set n true = s.ledger.given from by rw [← hget]; exact List.set_getElem_self hlt]

/-- In every run from the start and for every signal `n`:
* a clone is on the signal of its source, and a waiter on that of its handle;
* every handle shows the signal exactly where a trigger gave it;
* a poll of a waiter resolves exactly where a trigger gave the signal, and answers
  `done` where the waiter has resolved before;
* where all handles are dropped and the signal was not given, no poll resolves;
* a second trigger changes no answer. -/
theorem resolves_iff_given (steps : List Step) (n : Nat) :
    let s := empty.after steps
    (∀ source, s.signal? source = some n →
      (∀ copy, (s.step (.clone copy source)).1.signal? copy = some n) ∧
      ∀ waiter, (s.step (.wait waiter source)).1.waiter? waiter = some (Waiter.start n)) ∧
    (∀ name, s.signal? name = some n →
      ∃ b, (s.step (.isTriggered name)).2 = .flag b ∧ (b = true ↔ empty.Given steps n)) ∧
    (∀ name w, s.waiter? name = some w → w.channel = n →
      ∃ p, (s.step (.poll name)).2 = .poll p ∧ (p ≠ .pending ↔ empty.Given steps n) ∧
        (p = .done ↔ w.phase = .resolved)) ∧
    (n < s.channels.length → (∀ name, s.signal? name ≠ some n) → ¬ empty.Given steps n →
      ∀ more name w, (s.after more).waiter? name = some w → w.channel = n →
        ((s.after more).step (.poll name)).2 = .poll .pending) ∧
    (∀ name, s.signal? name = some n → empty.Given steps n →
      ∀ more, (s.step (.trigger name)).1.run more = s.run more) := by
  intro s
  have hs : s.Consistent none := consistent_after consistent_empty steps
  have hgiven : s.ledger.given[n]? = some true ↔ empty.Given steps n := given_after_empty steps n
  refine ⟨fun source hn => ⟨fun copy => ?_, fun waiter => ?_⟩, fun name hn => ?_, fun name w hw hwn => ?_, ?_, ?_⟩
  · obtain ⟨c, -, hf⟩ := hs.withHandle_eq hn
    rw [step, hf]
    exact List.lookup_cons_self
  · obtain ⟨c, -, hf⟩ := hs.withHandle_eq hn
    rw [step, hf]
    exact List.lookup_cons_self
  · rw [← hgiven]
    exact step_isTriggered hs hn
  · rw [← hgiven, ← hwn]
    exact step_poll hs hw
  · intro hlt hdropped hnot more name w hw hwn
    -- Without handles no later step gives the signal either.
    have hsilent : s.ledger.Silent n := ⟨by simpa [ledger] using hlt, hdropped⟩
    obtain ⟨p, hp, hiff, -⟩ := step_poll (consistent_after hs more) hw
    have hpending : p = .pending := by
      refine Decidable.of_not_not fun hne => ?_
      rcases (given_after hs more n).1 (hwn ▸ hiff.1 hne) with hg | hg
      · exact hnot (hgiven.1 hg)
      · exact silent_after hs hsilent more hg
    rw [hp, hpending]
  · intro name hn hg more
    -- Answers come from the ledger alone, and that is the same behind a second trigger.
    rw [run_eq_ledger_run (step_matches hs _).1, run_eq_ledger_run hs, ledger_trigger_again hs hn (hgiven.2 hg)]

/-- The last handle may go between the trigger and the poll. -/
theorem resolves_behind_last_drop :
    let steps := [.new "a", .wait "w" "a", .trigger "a", .drop "a"]
    empty.Given steps 0 ∧ ∃ p, ((empty.after steps).step (.poll "w")).2 = .poll p ∧ p ≠ .pending := by
  intro steps
  have hg : empty.Given steps 0 := ⟨[.new "a", .wait "w" "a"], "a", [.drop "a"], rfl, rfl⟩
  obtain ⟨p, hp, hiff, -⟩ := (resolves_iff_given steps 0).2.2.1 "w" (Waiter.start 0) rfl rfl
  exact ⟨hg, p, hp, hiff.2 hg⟩

end State

end AgentHost.Shutdown
