import AgentHost.Proofs.Serving.Requests
/-!
# Telling the task to stop

What holds in every run of the two parties, in whatever order their steps come.
`Takes` lists what a step can do, and `Orderly` is the invariant: the word to stop
is held just as long as the caller waits, it is sent at most once, the end of the
task is taken at most once, and every result has a reason. `Heard` looks back over
a run for the moment in which the caller saw the signal.

`handoff_orderly` puts together what both parties may rely on.
-/

namespace AgentHost.Serving

/-! ## What a step can do -/

/-- What an event does in a state, and the state that comes of it. -/
inductive Takes (grace : Duration) (s : State) : Event → State → Prop where
  | nothing (e : Event) : Takes grace s e s
  | asks : Takes grace s .trigger { s with triggered := true }
  | accepts (n : Nat) (accepting : s.task = .accepting) :
    Takes grace s (.arrive n) { s with accepted := s.accepted ++ [n], inFlight := s.inFlight ++ [n] }
  | answers (n : Nat) (inFlight : n ∈ s.inFlight) :
    Takes grace s (.finish n) { s with inFlight := s.inFlight.erase n, answered := s.answered ++ [n] }
  | fails (failure : Option Failure) (running : s.isRunning = true) :
    Takes grace s (.fail failure) { s with task := .ended failure }
  | observes (accepting : s.task = .accepting) (told : s.word ≠ .held) :
    Takes grace s .observe { s with task := .closing }
  | closes (closing : s.task = .closing) (idle : s.inFlight = []) :
    Takes grace s .close { s with task := .ended none }
  | tells (waiting : s.caller = .waiting) (asked : s.triggered = true) (running : s.isRunning = true) :
    Takes grace s .hear { s with caller := .draining, word := .sent, words := s.words + 1 }
  | tellsNobody (waiting : s.caller = .waiting) (asked : s.triggered = true) (finished : s.isRunning = false) :
    Takes grace s .hear { s.dropWord with caller := .draining }
  | joinsEarly (failure : Option Failure) (waiting : s.caller = .waiting) (ended : s.task = .ended failure) :
    Takes grace s .join ({ s with joins := s.joins + 1 }.giveBack (endedEarly failure))
  | joinsDrained (failure : Option Failure) (draining : s.caller = .draining) (ended : s.task = .ended failure) :
    Takes grace s .join ({ s with joins := s.joins + 1 }.giveBack (endedDrained failure))
  | givesUp (draining : s.caller = .draining) :
    Takes grace s .elapse ({ s with task := s.task.abort }.giveBack (.failed (.shutdownTimeout grace)))
  | leaves (busy : s.caller.isBusy = true) : Takes grace s .drop { s.dropWord with caller := .gone }

namespace Word

/-- The word once nobody holds it any more. -/
def letGo : Word → Word
  | .held | .dropped => .dropped
  | .sent => .sent

theorem letGo_ne_held (w : Word) : w.letGo ≠ .held := by
  cases w <;> decide

theorem letGo_eq_sent_iff (w : Word) : w.letGo = .sent ↔ w = .sent := by
  cases w <;> decide

end Word

namespace State
variable {grace : Duration} {s s' : State} {e : Event}

theorem takes_step (grace : Duration) (s : State) (e : Event) : Takes grace s e (s.step grace e) := by
  cases e with
  | trigger => exact .asks
  | arrive n =>
    simp only [step]
    split
    · exact .accepts n ‹_›
    all_goals exact .nothing _
  | finish n =>
    simp only [step]
    split
    · exact .answers n ‹_›
    · exact .nothing _
  | fail failure =>
    simp only [step]
    split
    · exact .fails failure ‹_›
    · exact .nothing _
  | observe =>
    simp only [step, observe]
    split
    · rename_i htask hword
      exact .observes htask (by rw [hword]; decide)
    · rename_i htask hword
      exact .observes htask (by rw [hword]; decide)
    · exact .nothing _
  | close =>
    simp only [step]
    split
    · rename_i h
      exact .closes h.1 h.2
    · exact .nothing _
  | hear =>
    simp only [step, hear]
    split
    · split
      · split
        · exact .tells ‹_› ‹_› ‹_›
        · exact .tellsNobody ‹_› ‹_› (Bool.eq_false_iff.2 ‹_›)
      · exact .nothing _
    all_goals exact .nothing _
  | join =>
    simp only [step, join]
    split
    · exact .joinsEarly _ ‹_› ‹_›
    · exact .joinsDrained _ ‹_› ‹_›
    · exact .nothing _
  | elapse =>
    simp only [step, elapse]
    split
    · exact .givesUp ‹_›
    all_goals exact .nothing _
  | drop =>
    simp only [step]
    split
    · exact .leaves ‹_›
    · exact .nothing _

/-- What each step keeps, a run keeps. -/
theorem run_keeps {P : State → Prop} (hstep : ∀ s e, P s → P (s.step grace e)) (h : P s) (events : List Event) :
    P (s.run grace events) := by
  induction events generalizing s with
  | nil => exact h
  | cons e events ih => exact ih (hstep s e h)

/-! ## The word and the task -/

theorem dropWord_eq (s : State) : s.dropWord = { s with word := s.word.letGo } := by
  obtain ⟨_, _, word, _⟩ := s
  cases word <;> rfl

theorem giveBack_eq (s : State) (result : Result) :
    s.giveBack result = { s with caller := .returned result, word := s.word.letGo } := by
  rw [giveBack, dropWord_eq]

theorem isRunning_iff (s : State) : s.isRunning = true ↔ s.task = .accepting ∨ s.task = .closing := by
  unfold isRunning
  cases s.task <;> simp

theorem abort_of_isRunning_false (h : s.isRunning = false) : s.task.abort = s.task := by
  unfold isRunning at h
  cases htask : s.task <;> simp_all [Task.abort]

/-- A task that is over stays as it is. -/
theorem task_step_of_over (h : s.isRunning = false) : (s.step grace e).task = s.task := by
  have htakes := takes_step grace s e
  have hover : ∀ t : Task, (t = .accepting ∨ t = .closing) → s.task ≠ t := by
    intro t ht htask
    have := (isRunning_iff s).2 (by rw [htask]; exact ht)
    rw [h] at this
    cases this
  generalize s.step grace e = s' at htakes
  cases htakes with
  | fails failure running => rw [h] at running; cases running
  | observes accepting => exact absurd accepting (hover _ (.inl rfl))
  | closes closing => exact absurd closing (hover _ (.inr rfl))
  | givesUp =>
    rw [giveBack_eq]
    exact abort_of_isRunning_false h
  | tellsNobody | joinsEarly | joinsDrained | leaves => simp only [giveBack_eq, dropWord_eq]
  | nothing | asks | accepts | answers | tells => rfl

/-- A task that does not accept never accepts again, and lets nothing more in. -/
theorem closed_step (h : s.task ≠ .accepting) (grace : Duration) (e : Event) :
    (s.step grace e).task ≠ .accepting ∧ (s.step grace e).accepted = s.accepted := by
  have htakes := takes_step grace s e
  generalize s.step grace e = s' at htakes
  cases htakes with
  | accepts n accepting => exact absurd accepting h
  | givesUp =>
    rw [giveBack_eq]
    refine ⟨?_, rfl⟩
    show s.task.abort ≠ .accepting
    cases s.task <;> nofun
  | fails | observes | closes => exact ⟨nofun, rfl⟩
  | tellsNobody | joinsEarly | joinsDrained | leaves =>
    simp only [giveBack_eq, dropWord_eq]
    exact ⟨h, trivial⟩
  | nothing | asks | answers | tells => exact ⟨h, rfl⟩

theorem task_run_of_closed (h : s.task ≠ .accepting) (events : List Event) : (s.run grace events).task ≠ .accepting :=
  run_keeps (P := fun s => s.task ≠ .accepting) (fun _ e htask => (closed_step htask grace e).1) h events

theorem accepted_run_of_closed (h : s.task ≠ .accepting) (events : List Event) :
    (s.run grace events).accepted = s.accepted := by
  have hkept : (s.run grace events).task ≠ .accepting ∧ (s.run grace events).accepted = s.accepted := by
    refine run_keeps (P := fun now => now.task ≠ .accepting ∧ now.accepted = s.accepted) ?_ ⟨h, rfl⟩ events
    rintro now e ⟨htask, haccepted⟩
    obtain ⟨htask', haccepted'⟩ := closed_step htask grace e
    exact ⟨htask', haccepted'.trans haccepted⟩
  exact hkept.2

/-! ## The invariant -/

/-- Why the caller returned a result. -/
inductive Reason (grace : Duration) (s : State) : Result → Prop where
  | early (failure : Option Failure) (ended : s.task = .ended failure) : Reason grace s (endedEarly failure)
  | drained (failure : Option Failure) (ended : s.task = .ended failure) : Reason grace s (endedDrained failure)
  | late (finished : s.isRunning = false) : Reason grace s (.failed (.shutdownTimeout grace))

/-- What holds between the caller and the task. -/
structure Orderly (grace : Duration) (s : State) : Prop where
  held_iff : s.word = .held ↔ s.caller = .waiting
  words_eq : s.words = if s.word = .sent then 1 else 0
  told_of_closing : s.task = .closing → s.word ≠ .held
  joins_of_busy : s.caller.isBusy = true → s.joins = 0
  joins_le : s.joins ≤ 1
  reason : ∀ r, s.caller = .returned r → Reason grace s r

theorem orderly_start (grace : Duration) (early : Bool) : Orderly grace (start early) where
  held_iff := ⟨fun _ => rfl, fun _ => rfl⟩
  words_eq := rfl
  told_of_closing := nofun
  joins_of_busy _ := rfl
  joins_le := Nat.zero_le _
  reason := nofun

theorem Reason.step {r : Result} (h : Reason grace s r) : Reason grace (s.step grace e) r := by
  have hover : s.isRunning = false := by
    cases h with
    | early failure ended | drained failure ended => rw [isRunning, ended]
    | late finished => exact finished
  have htask : (s.step grace e).task = s.task := task_step_of_over hover
  cases h with
  | early failure ended => exact .early failure (htask.trans ended)
  | drained failure ended => exact .drained failure (htask.trans ended)
  | late finished => exact .late (by rw [isRunning, htask]; exact finished)

theorem isBusy_of_waiting (h : s.caller = .waiting) : s.caller.isBusy = true := by rw [h]; rfl

theorem isBusy_of_draining (h : s.caller = .draining) : s.caller.isBusy = true := by rw [h]; rfl

theorem isRunning_abort (s : State) : State.isRunning { s with task := s.task.abort } = false := by
  unfold isRunning
  cases s.task <;> rfl

theorem words_letGo (h : s.words = if s.word = .sent then 1 else 0) :
    s.words = if s.word.letGo = .sent then 1 else 0 := by
  simp only [Word.letGo_eq_sent_iff]
  exact h

/-- A caller that returns, and has a reason to, leaves everything in order. -/
theorem orderly_giveBack {r : Result} (hwords : s.words = if s.word = .sent then 1 else 0) (hjoins : s.joins ≤ 1)
    (hreason : Reason grace (s.giveBack r) r) : Orderly grace (s.giveBack r) := by
  rw [giveBack_eq] at hreason ⊢
  refine ⟨⟨fun hheld => absurd hheld (Word.letGo_ne_held _), nofun⟩, words_letGo hwords, fun _ => Word.letGo_ne_held _, nofun,
    hjoins, ?_⟩
  rintro _ ⟨⟩
  exact hreason

/-- Each step keeps both parties in order. -/
theorem orderly_step (h : Orderly grace s) (e : Event) : Orderly grace (s.step grace e) := by
  have htakes := takes_step grace s e
  have hreason : ∀ r, s.caller = .returned r → Reason grace (s.step grace e) r := fun r hr => (h.reason r hr).step
  generalize s.step grace e = s' at htakes hreason
  cases htakes with
  | nothing => exact h
  | asks | accepts | answers =>
    exact ⟨h.held_iff, h.words_eq, h.told_of_closing, h.joins_of_busy, h.joins_le, hreason⟩
  | fails | closes => exact ⟨h.held_iff, h.words_eq, nofun, h.joins_of_busy, h.joins_le, hreason⟩
  | observes accepting told => exact ⟨h.held_iff, h.words_eq, fun _ => told, h.joins_of_busy, h.joins_le, hreason⟩
  | tells waiting =>
    -- The word was held, so that it is sent for the first time.
    have hnone : s.words = 0 := by rw [h.words_eq, h.held_iff.2 waiting]; rfl
    have hjoins : s.joins = 0 := h.joins_of_busy (isBusy_of_waiting waiting)
    exact ⟨⟨nofun, nofun⟩, by rw [hnone]; rfl, fun _ => nofun, fun _ => hjoins, h.joins_le, nofun⟩
  | tellsNobody waiting =>
    have hjoins : s.joins = 0 := h.joins_of_busy (isBusy_of_waiting waiting)
    rw [dropWord_eq]
    exact ⟨⟨fun hheld => absurd hheld (Word.letGo_ne_held _), nofun⟩, words_letGo h.words_eq,
      fun _ => Word.letGo_ne_held _, fun _ => hjoins, h.joins_le, nofun⟩
  | joinsEarly failure waiting ended =>
    have hjoins : s.joins = 0 := h.joins_of_busy (isBusy_of_waiting waiting)
    refine orderly_giveBack h.words_eq (Nat.succ_le_succ (Nat.le_of_eq hjoins)) ?_
    rw [giveBack_eq]
    exact .early failure ended
  | joinsDrained failure draining ended =>
    have hjoins : s.joins = 0 := h.joins_of_busy (isBusy_of_draining draining)
    refine orderly_giveBack h.words_eq (Nat.succ_le_succ (Nat.le_of_eq hjoins)) ?_
    rw [giveBack_eq]
    exact .drained failure ended
  | givesUp =>
    refine orderly_giveBack h.words_eq h.joins_le ?_
    rw [giveBack_eq]
    exact .late (isRunning_abort s)
  | leaves =>
    rw [dropWord_eq]
    exact ⟨⟨fun hheld => absurd hheld (Word.letGo_ne_held _), nofun⟩, words_letGo h.words_eq,
      fun _ => Word.letGo_ne_held _, nofun, h.joins_le, nofun⟩

/-- Whatever happens, both parties stay in order. -/
theorem orderly_run (h : Orderly grace s) (events : List Event) : Orderly grace (s.run grace events) :=
  run_keeps (P := Orderly grace) (fun _ e horderly => orderly_step horderly e) h events

/-- A caller that has returned or went away stays where it is. -/
theorem caller_step_of_idle (h : s.caller.isBusy = false) (e : Event) : (s.step grace e).caller = s.caller := by
  have htakes := takes_step grace s e
  have hnot : ∀ c : Caller, c.isBusy = true → s.caller ≠ c := fun c hc heq => by
    rw [heq, hc] at h
    cases h
  generalize s.step grace e = s' at htakes
  cases htakes with
  | tells waiting | tellsNobody waiting | joinsEarly _ waiting => exact absurd waiting (hnot _ rfl)
  | joinsDrained _ draining | givesUp draining => exact absurd draining (hnot _ rfl)
  | leaves busy => exact absurd busy (Bool.eq_false_iff.1 h)
  | nothing | asks | accepts | answers | fails | observes | closes => rfl

theorem caller_run_of_idle (h : s.caller.isBusy = false) (events : List Event) :
    (s.run grace events).caller = s.caller := by
  refine run_keeps (P := fun now => now.caller = s.caller) ?_ rfl events
  intro now e hcaller
  rw [← hcaller] at h ⊢
  exact caller_step_of_idle h e

/-- A task that was told to stop and sees it does not accept any more. -/
theorem task_observe (h : s.word ≠ .held) : (s.step grace .observe).task ≠ .accepting := by
  simp only [step, observe]
  split
  · intro htask
    cases htask
  · intro htask
    cases htask
  · rename_i hsent hdropped
    intro htask
    cases hword : s.word with
    | held => exact h hword
    | sent => exact hsent htask hword
    | dropped => exact hdropped htask hword

/-- A word that is no longer held is never held again. -/
theorem told_step (h : s.word ≠ .held) (e : Event) : (s.step grace e).word ≠ .held := by
  have htakes := takes_step grace s e
  generalize s.step grace e = s' at htakes
  cases htakes with
  | tells => nofun
  | tellsNobody | joinsEarly | joinsDrained | givesUp | leaves =>
    simp only [giveBack_eq, dropWord_eq]
    exact Word.letGo_ne_held _
  | nothing | asks | accepts | answers | fails | observes | closes => exact h

/-- A task that was told to stop stops accepting as soon as it looks. -/
theorem task_run_of_observe {events : List Event} (h : s.word ≠ .held) (hlooks : .observe ∈ events) :
    (s.run grace events).task ≠ .accepting := by
  induction events generalizing s with
  | nil => cases hlooks
  | cons e events ih =>
    rcases List.mem_cons.1 hlooks with rfl | hlater
    · exact task_run_of_closed (task_observe h) events
    · exact ih (told_step h e) hlater

/-! ## The signal -/

/-- In the course of the events the caller saw the signal, which had been given. -/
def Heard (grace : Duration) (s : State) (events : List Event) : Prop :=
  ∃ before after, events = before ++ .hear :: after ∧
    (s.run grace before).caller = .waiting ∧ (s.run grace before).triggered = true

theorem Heard.behind {events : List Event} (h : Heard grace (s.step grace e) events) : Heard grace s (e :: events) := by
  obtain ⟨before, after, rfl, hwaiting, htriggered⟩ := h
  exact ⟨e :: before, after, rfl, hwaiting, htriggered⟩

/-- The caller is where only the signal brings it. -/
def Stirred : Caller → Prop
  | .draining => True
  | .returned r => r = .done ∨ ∃ g, r = .failed (.shutdownTimeout g)
  | .waiting | .gone => False

theorem not_stirred_endedEarly (failure : Option Failure) : ¬ Stirred (.returned (endedEarly failure)) := by
  rintro (hdone | ⟨g, hlate⟩)
  · cases failure <;> cases hdone
  · rcases failure with _ | ⟨cause | cause⟩ <;> cases hlate

/-- Only the signal makes the caller drain, and return what it returns then. -/
theorem stirred_step {e : Event} (h : Stirred (s.step grace e).caller) :
    Stirred s.caller ∨ e = .hear ∧ s.caller = .waiting ∧ s.triggered = true := by
  have htakes := takes_step grace s e
  generalize s.step grace e = s' at htakes h
  cases htakes with
  | tells waiting asked | tellsNobody waiting asked => exact .inr ⟨rfl, waiting, asked⟩
  | joinsEarly failure =>
    rw [giveBack_eq] at h
    exact absurd h (not_stirred_endedEarly failure)
  | joinsDrained _ draining | givesUp draining =>
    left
    rw [draining]
    trivial
  | leaves => exact h.elim
  | nothing | asks | accepts | answers | fails | observes | closes => exact .inl h

theorem stirred_run {events : List Event} (h : Stirred (s.run grace events).caller) :
    Stirred s.caller ∨ Heard grace s events := by
  induction events generalizing s with
  | nil => exact .inl h
  | cons e events ih =>
    rcases ih h with hstirred | hheard
    · rcases stirred_step hstirred with hbefore | ⟨rfl, hwaiting, htriggered⟩
      · exact .inl hbefore
      · exact .inr ⟨[], events, rfl, hwaiting, htriggered⟩
    · exact .inr hheard.behind

/-- Only a trigger asks for shutdown, and nothing takes that back. -/
theorem triggered_step (e : Event) : (s.step grace e).triggered = true ↔ s.triggered = true ∨ e = .trigger := by
  by_cases htrigger : e = .trigger
  · subst htrigger
    simp [step]
  · have htakes := takes_step grace s e
    generalize s.step grace e = s' at htakes
    rw [or_iff_left htrigger]
    cases htakes with
    | asks => exact absurd rfl htrigger
    | tellsNobody | joinsEarly | joinsDrained | givesUp | leaves => simp only [giveBack_eq, dropWord_eq]
    | nothing | accepts | answers | fails | observes | closes | tells => rfl

theorem triggered_run (events : List Event) :
    (s.run grace events).triggered = true ↔ s.triggered = true ∨ .trigger ∈ events := by
  induction events generalizing s with
  | nil => simp [run]
  | cons e events ih =>
    have hrun : (s.run grace (e :: events)).triggered = ((s.step grace e).run grace events).triggered := rfl
    rw [hrun, ih, triggered_step, or_assoc, List.mem_cons, eq_comm (a := e)]

/-- Who saw the signal saw one that was given. -/
theorem Heard.given {early : Bool} {events : List Event} (h : Heard grace (start early) events) :
    early = true ∨ .trigger ∈ events := by
  obtain ⟨before, after, rfl, -, htriggered⟩ := h
  rcases (triggered_run before).1 htriggered with hearly | hmem
  · exact .inl hearly
  · exact .inr (List.mem_append_left _ hmem)

/-! ## What both parties may rely on -/

/-- What a run has led to, for the task and for who waits for it. -/
structure Handoff (grace : Duration) (early : Bool) (events : List Event) (s : State) : Prop where
  /-- The task is told to stop by a caller that saw the signal, returned or went away. -/
  told : s.word ≠ .held → Heard grace (start early) events ∨ (∃ r, s.caller = .returned r) ∨ s.caller = .gone
  told_once : s.words ≤ 1
  told_of_closing : s.task = .closing → s.word ≠ .held
  /-- A task that was told to stop accepts no longer than until it looks, and lets nothing in from then on. -/
  stops : s.word ≠ .held → ∀ more, .observe ∈ more → (s.run grace more).task ≠ .accepting
  closed : s.task ≠ .accepting → ∀ more, (s.run grace more).accepted = s.accepted
  /-- No task is left behind that was not told to stop. -/
  left_over : s.caller.isBusy = false → s.word ≠ .held
  /-- The end of the task is taken once, and then nobody waits for it any more. -/
  joined_once : s.joins ≤ 1
  idle_of_joined : s.joins = 1 → ∀ more, (s.run grace more).caller.isBusy = false
  /-- A task that ends well while nobody asked for it does not make a good result. -/
  stopped : s.caller = .waiting → s.task = .ended none →
    ∀ more, (s.run grace (.join :: more)).caller = .returned (.failed .stopped)
  /-- These results are for a signal that was given and seen. -/
  asked : ∀ r, s.caller = .returned r → (r = .done ∨ ∃ g, r = .failed (.shutdownTimeout g)) →
    Heard grace (start early) events ∧ (early = true ∨ .trigger ∈ events)
  ended_of_done : s.caller = .returned .done → s.task = .ended none
  over_of_late : ∀ g, s.caller = .returned (.failed (.shutdownTimeout g)) → g = grace ∧ s.isRunning = false

theorem ended_of_reason_done (h : Reason grace s .done) : s.task = .ended none := by
  generalize hr : Result.done = r at h
  cases h with
  | early failure => cases failure <;> cases hr
  | drained failure ended =>
    cases failure with
    | none => exact ended
    | some failure => cases hr
  | late => cases hr

theorem over_of_reason_late {g : Duration} (h : Reason grace s (.failed (.shutdownTimeout g))) :
    g = grace ∧ s.isRunning = false := by
  generalize hr : Result.failed (.shutdownTimeout g) = r at h
  cases h with
  | early failure | drained failure => rcases failure with _ | ⟨cause | cause⟩ <;> cases hr
  | late finished =>
    cases hr
    exact ⟨rfl, finished⟩

/-- Whatever happens in whatever order, the task and its caller part in good order. -/
theorem handoff_orderly (grace : Duration) (early : Bool) (events : List Event) :
    Handoff grace early events ((start early).run grace events) := by
  have horderly : Orderly grace ((start early).run grace events) := orderly_run (orderly_start grace early) events
  have hheard : Stirred ((start early).run grace events).caller → Heard grace (start early) events := fun h =>
    (stirred_run h).resolve_left id
  generalize (start early).run grace events = s at horderly hheard
  have htold : s.caller ≠ .waiting → s.word ≠ .held := fun h hheld => h (horderly.held_iff.1 hheld)
  refine ⟨?told, ?told_once, horderly.told_of_closing, fun hword _ => task_run_of_observe hword, accepted_run_of_closed,
    ?left_over, horderly.joins_le, ?idle_of_joined, ?stopped, ?asked, ?ended_of_done, ?over_of_late⟩
  case told =>
    intro hword
    cases hcaller : s.caller with
    | waiting => exact absurd (horderly.held_iff.2 hcaller) hword
    | draining => exact .inl (hheard (by rw [hcaller]; trivial))
    | returned r => exact .inr (.inl ⟨r, rfl⟩)
    | gone => exact .inr (.inr rfl)
  case told_once =>
    rw [horderly.words_eq]
    split <;> decide
  case left_over =>
    intro hidle
    refine htold fun hwaiting => ?_
    rw [hwaiting] at hidle
    cases hidle
  case idle_of_joined =>
    intro hjoined more
    have hidle : s.caller.isBusy = false := by
      cases hbusy : s.caller.isBusy with
      | false => rfl
      | true =>
        rw [horderly.joins_of_busy hbusy] at hjoined
        cases hjoined
    rw [caller_run_of_idle hidle]
    exact hidle
  case stopped =>
    intro hwaiting hended more
    have hjoin : (s.step grace .join).caller = .returned (.failed .stopped) := by
      simp only [step, join, hwaiting, hended, giveBack, endedEarly]
    show ((s.step grace .join).run grace more).caller = _
    rw [caller_run_of_idle (by rw [hjoin]; rfl), hjoin]
  case asked =>
    intro r hreturned hasked
    have hseen : Heard grace (start early) events := hheard (by rw [hreturned]; exact hasked)
    exact ⟨hseen, hseen.given⟩
  case ended_of_done => exact fun h => ended_of_reason_done (horderly.reason _ h)
  case over_of_late => exact fun g h => over_of_reason_late (horderly.reason _ h)

end State

end AgentHost.Serving
