import AgentHost.Shutdown.Run
/-!
# The ledger of a run with signals

A `Ledger` keeps what can be seen of a run: which signals were given, which signal
each handle and each waiter is on, and which waiters have resolved. It has no
versions and does not count handles, and a waiter in it resolves when it is polled
and its signal was given. Later modules prove that the signals behave like it.
-/

namespace AgentHost.Shutdown

/-- What can be seen of a run. A waiter is kept with its signal and whether it has
resolved. -/
structure Ledger where
  given : List Bool
  handles : List (String × Nat)
  waiters : List (String × Nat × Bool)
  deriving DecidableEq

namespace Ledger

/-- Gives a handle on a signal a name. -/
def nameHandle (l : Ledger) (name : String) (n : Nat) : Ledger :=
  { l with handles := (name, n) :: l.handles.filter (·.1 ≠ name) }

/-- Gives a waiter a name. -/
def nameWaiter (l : Ledger) (name : String) (n : Nat) (resolved : Bool) : Ledger :=
  { l with waiters := (name, n, resolved) :: l.waiters.filter (·.1 ≠ name) }

/-- Does a step with the signal that a handle of that name is on. -/
def withHandle (l : Ledger) (name : String) (f : Nat → Bool → Ledger × Answer) : Ledger × Answer :=
  match l.handles.lookup name with
  | none => (l, .missing)
  | some n =>
    match l.given[n]? with
    | none => (l, .missing)
    | some b => f n b

/-- What a poll answers. -/
def pollAnswer (resolved given : Bool) : Poll :=
  if resolved then .done else if given then .ready else .pending

/-- One step. -/
def step (l : Ledger) : Step → Ledger × Answer
  | .new name => ({ l with given := l.given ++ [false] }.nameHandle name l.given.length, .ok)
  | .clone copy source => l.withHandle source fun n _ => (l.nameHandle copy n, .ok)
  | .trigger name => l.withHandle name fun n _ => ({ l with given := l.given.set n true }, .ok)
  | .isTriggered name => l.withHandle name fun _ b => (l, .flag b)
  | .wait waiter name => l.withHandle name fun n _ => (l.nameWaiter waiter n false, .ok)
  | .poll waiter =>
    match l.waiters.lookup waiter with
    | none => (l, .missing)
    | some (n, resolved) =>
      match l.given[n]? with
      | none => (l, .missing)
      | some b => (l.nameWaiter waiter n b, .poll (pollAnswer resolved b))
  | .drop name => l.withHandle name fun _ _ =>
    ({ l with handles := l.handles.filter (·.1 ≠ name) }, .ok)
  | .dropWaiter waiter =>
    match l.waiters.lookup waiter with
    | none => (l, .missing)
    | some _ => ({ l with waiters := l.waiters.filter (·.1 ≠ waiter) }, .ok)

/-- The answers of a run. -/
def run (l : Ledger) : List Step → List Answer
  | [] => []
  | step :: rest => (l.step step).2 :: (l.step step).1.run rest

/-! ## Names -/

section Names
variable {α : Type}

theorem lookup_filter_ne (l : List (String × α)) (a b : String) :
    (l.filter (·.1 ≠ a)).lookup b = if b = a then none else l.lookup b := by
  induction l with
  | nil => simp
  | cons e l ih =>
    obtain ⟨k, v⟩ := e
    by_cases hk : k = a
    · rw [List.filter_cons_of_neg (by simpa using hk), ih, List.lookup_cons]
      by_cases hb : b = a
      · rw [if_pos hb, if_pos hb]
      · rw [if_neg hb, if_neg hb, beq_false_of_ne fun h => hb (h.trans hk)]
    · rw [List.filter_cons_of_pos (by simpa using hk), List.lookup_cons, List.lookup_cons, ih]
      by_cases hb : b = k
      · subst hb; simp [hk]
      · rw [beq_false_of_ne hb]

theorem filter_ne_of_lookup (l : List (String × α)) (a : String) (h : l.lookup a = none) :
    l.filter (·.1 ≠ a) = l := by
  refine List.filter_eq_self.2 fun e he => ?_
  have hne : a ≠ e.1 := bne_iff_ne.1 (List.lookup_eq_none_iff.1 h e he)
  exact decide_eq_true hne.symm

theorem mem_of_lookup {l : List (String × α)} {a : String} {v : α} (h : l.lookup a = some v) : (a, v) ∈ l := by
  obtain ⟨l₁, l₂, rfl, -⟩ := List.lookup_eq_some_iff.1 h
  exact List.mem_append_right _ List.mem_cons_self

theorem lookup_map_snd {β : Type} (f : α → β) (l : List (String × α)) (a : String) :
    (l.map fun e => (e.1, f e.2)).lookup a = (l.lookup a).map f := by
  induction l with
  | nil => rfl
  | cons e l ih =>
    rw [List.map_cons, List.lookup_cons, List.lookup_cons, ih]
    split <;> rfl

end Names

/-! ## Signals that are given -/

/-- What holds where the handle is missing and where it is found holds of the step. -/
theorem withHandle_of {P : Ledger × Answer → Prop} {l : Ledger} {name : String} {f : Nat → Bool → Ledger × Answer}
    (missing : P (l, .missing))
    (found : ∀ n b, l.handles.lookup name = some n → l.given[n]? = some b → P (f n b)) :
    P (l.withHandle name f) := by
  unfold withHandle
  split
  · exact missing
  · split
    · exact missing
    · exact found _ _ ‹_› ‹_›

/-- Every handle is on a signal that was made. -/
def Placed (l : Ledger) : Prop := ∀ name n, l.handles.lookup name = some n → n < l.given.length

theorem given_trigger {l : Ledger} (hp : l.Placed) (name : String) (n : Nat) :
    (l.step (.trigger name)).1.given[n]? = some true ↔
      l.given[n]? = some true ∨ l.handles.lookup name = some n := by
  cases hl : l.handles.lookup name with
  | none => simp [step, withHandle, hl]
  | some m =>
    have hm := hp name m hl
    simp only [step, withHandle, hl, List.getElem?_eq_getElem hm, Option.some.injEq]
    by_cases h : m = n
    · subst h; simp [hm]
    · simp [List.getElem?_set_ne h, h]

/-- Only a trigger gives a signal. -/
theorem given_other (l : Ledger) {x : Step} (hx : ∀ name, x ≠ .trigger name) (n : Nat) :
    (l.step x).1.given[n]? = some true ↔ l.given[n]? = some true := by
  cases x with
  | trigger name => exact absurd rfl (hx name)
  | new name =>
    simp only [step, nameHandle]
    rcases Nat.lt_trichotomy n l.given.length with h | h | h
    · rw [List.getElem?_append_left h]
    · simp [h]
    · rw [List.getElem?_eq_none (by simp; omega), List.getElem?_eq_none (by omega)]
  | clone | isTriggered | wait | drop =>
    exact withHandle_of (P := fun r => r.1.given[n]? = some true ↔ _) Iff.rfl fun _ _ _ _ => Iff.rfl
  | poll waiter =>
    simp only [step]
    split
    · rfl
    · split <;> rfl
  | dropWaiter waiter =>
    simp only [step]
    split <;> rfl

/-- A waiter is left alone by every step that is not on it. -/
theorem lookup_waiters_step (l : Ledger) {waiter : String} {x : Step} (hx : x.isOn waiter = false) :
    (l.step x).1.waiters.lookup waiter = l.waiters.lookup waiter := by
  have hother : ∀ {name : String}, decide (name = waiter) = false → ¬ waiter = name := fun h hname =>
    of_decide_eq_false h hname.symm
  cases x with
  | new name => rfl
  | clone | trigger | isTriggered | drop =>
    exact withHandle_of (P := fun r => r.1.waiters.lookup waiter = _) rfl fun _ _ _ _ => rfl
  | wait name source =>
    refine withHandle_of (P := fun r => r.1.waiters.lookup waiter = _) rfl fun n _ _ _ => ?_
    simp only [nameWaiter, List.lookup_cons, beq_false_of_ne (hother hx), lookup_filter_ne, if_neg (hother hx)]
  | poll name =>
    simp only [step]
    split
    · rfl
    · split
      · rfl
      · simp only [nameWaiter, List.lookup_cons, beq_false_of_ne (hother hx), lookup_filter_ne, if_neg (hother hx)]
  | dropWaiter name =>
    simp only [step]
    split
    · rfl
    · simp only [lookup_filter_ne, if_neg (hother hx)]

/-! ## Signals without handles -/

/-- The signal was made, and no handle is on it. -/
def Silent (l : Ledger) (n : Nat) : Prop := n < l.given.length ∧ ∀ name, l.handles.lookup name ≠ some n

theorem silent_filter {l : Ledger} {n : Nat} (name : String) (h : l.Silent n) :
    Silent { l with handles := l.handles.filter (·.1 ≠ name) } n := by
  refine ⟨h.1, fun other => ?_⟩
  rw [lookup_filter_ne]
  split
  · nofun
  · exact h.2 other

theorem silent_nameHandle {l : Ledger} {n m : Nat} (name : String) (h : l.Silent n) (hm : m ≠ n) :
    (l.nameHandle name m).Silent n := by
  refine ⟨h.1, fun other => ?_⟩
  simp only [nameHandle, List.lookup_cons]
  split
  · exact fun ho => hm (Option.some.inj ho)
  · exact (silent_filter name h).2 other

/-- Where all handles on a signal were dropped, no step makes a new one. -/
theorem silent_step {l : Ledger} {n : Nat} (x : Step) (h : l.Silent n) : (l.step x).1.Silent n := by
  cases x with
  | new name =>
    have h' : Silent { l with given := l.given ++ [false] } n :=
      ⟨by rw [List.length_append]; exact Nat.lt_add_right _ h.1, h.2⟩
    exact silent_nameHandle name h' (Nat.ne_of_gt h.1)
  | clone copy source =>
    refine withHandle_of (P := fun r => r.1.Silent n) h fun m _ hl _ => ?_
    exact silent_nameHandle copy h fun hm => h.2 source (hm ▸ hl)
  | trigger name =>
    refine withHandle_of (P := fun r => r.1.Silent n) h fun m _ _ _ => ?_
    exact ⟨by rw [List.length_set]; exact h.1, h.2⟩
  | isTriggered | wait => exact withHandle_of (P := fun r => r.1.Silent n) h fun _ _ _ _ => h
  | drop name => exact withHandle_of (P := fun r => r.1.Silent n) h fun _ _ _ _ => silent_filter name h
  | poll waiter =>
    simp only [step]
    split
    · exact h
    · split <;> exact h
  | dropWaiter waiter =>
    simp only [step]
    split <;> exact h

end Ledger

end AgentHost.Shutdown
