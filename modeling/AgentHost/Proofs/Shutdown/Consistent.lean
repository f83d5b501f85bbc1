import AgentHost.Proofs.Shutdown.Ledger
/-!
# Signals keep to their ledger

`State.Consistent` is the invariant of every run. A channel counts the handles that
name it. A waiter that still waits has never looked at a given signal, one that
resolved is on a given signal, and one that gave up is on a signal that was not
given and has no handle left, so that nobody can give it any more.

`step_matches`: a step of a consistent state answers what the ledger answers, and
leaves a consistent state with the ledger that the ledger's own step makes.
-/

namespace AgentHost.Shutdown

/-! ## Waiters -/

/-- What a waiter remembers agrees with its channel. -/
def Waiter.Fits (w : Waiter) (c : Channel) : Prop :=
  match w.phase with
  | .waiting => ∀ v, w.seen = some v → v ≤ c.version ∧ (v = c.version → c.triggered = false)
  | .resolved => c.triggered = true
  | .abandoned => c.handles = 0 ∧ c.triggered = false

namespace Waiter
variable {w : Waiter} {c : Channel}

theorem fits_start (n : Nat) (c : Channel) : (start n).Fits c := by
  intro v hv
  cases hv

theorem fits_trigger (h : w.Fits c) (hc : 0 < c.handles) : w.Fits c.trigger := by
  unfold Fits at h ⊢
  split at h <;> simp only [Channel.trigger]
  · intro v hv
    have hle := (h v hv).1
    exact ⟨by omega, by omega⟩
  · omega

theorem fits_share (h : w.Fits c) (hc : 0 < c.handles) : w.Fits c.share := by
  unfold Fits at h ⊢
  split at h <;> simp only [Channel.share]
  · exact h
  · exact h
  · omega

theorem fits_release (h : w.Fits c) : w.Fits c.release := by
  unfold Fits at h ⊢
  split at h <;> simp only [Channel.release]
  · exact h
  · exact h
  · exact ⟨by omega, h.2⟩

/-- The waiter has resolved. -/
def hasResolved (w : Waiter) : Bool := decide (w.phase = .resolved)

theorem fits_suspend (h : w.Fits c) (hc : c.triggered = false) : (w.suspend c).Fits c := by
  unfold suspend
  split
  · exact ⟨‹_›, hc⟩
  · exact h

theorem hasResolved_suspend (hw : w.phase = .waiting) : (w.suspend c).hasResolved = false := by
  unfold suspend hasResolved
  split <;> simp [hw]

theorem channel_suspend (w : Waiter) (c : Channel) : (w.suspend c).channel = w.channel := by
  unfold suspend
  split <;> rfl

/-- A poll resolves a waiter exactly where its signal was given. -/
theorem poll_of_fits (h : w.Fits c) :
    (w.poll c).1.Fits c ∧ (w.poll c).1.channel = w.channel ∧ (w.poll c).1.hasResolved = c.triggered ∧
      (w.poll c).2 = Ledger.pollAnswer w.hasResolved c.triggered := by
  obtain ⟨n, seen, phase⟩ := w
  cases phase with
  | resolved =>
    have ht : c.triggered = true := h
    exact ⟨h, rfl, ht.symm, rfl⟩
  | abandoned =>
    have ht : c.triggered = false := h.2
    exact ⟨h, rfl, ht.symm, by rw [ht]; rfl⟩
  | waiting =>
    simp only [poll]
    split
    · have ht : c.triggered = false := (h _ ‹_›).2 rfl
      refine ⟨fits_suspend h ht, channel_suspend _ c, ?_, by rw [ht]; rfl⟩
      rw [hasResolved_suspend rfl, ht]
    · split
      · exact ⟨‹_›, rfl, (‹c.triggered = true›).symm, by rw [‹c.triggered = true›]; rfl⟩
      · have ht : c.triggered = false := by simpa using ‹¬c.triggered = true›
        have hlook : Fits ⟨n, some c.version, .waiting⟩ c := by
          rintro v ⟨⟩
          exact ⟨Nat.le_refl _, fun _ => ht⟩
        refine ⟨fits_suspend hlook ht, channel_suspend _ c, ?_, by rw [ht]; rfl⟩
        rw [hasResolved_suspend rfl, ht]

end Waiter

/-! ## The invariant -/

namespace State

/-- The channel of a waiter is there, and what the waiter remembers agrees with it. -/
def Sees (s : State) (w : Waiter) : Prop := ∃ c, s.channels[w.channel]? = some c ∧ w.Fits c

/-- The invariant. `spare` is a channel with one handle that has no name yet. -/
structure Consistent (spare : Option Nat) (s : State) : Prop where
  names : (s.handles.map (·.1)).Nodup
  placed : ∀ e ∈ s.handles, e.2 < s.channels.length
  counted : ∀ n c, s.channels[n]? = some c →
    c.handles = s.handles.countP (·.2 = n) + if spare = some n then 1 else 0
  seen : ∀ e ∈ s.waiters, s.Sees e.2

/-- The ledger of a state. -/
def ledger (s : State) : Ledger where
  given := s.channels.map (·.triggered)
  handles := s.handles
  waiters := s.waiters.map fun e => (e.1, e.2.channel, e.2.hasResolved)

variable {s : State} {spare : Option Nat} {n : Nat}

theorem consistent_empty : empty.Consistent none := by
  constructor <;> simp [empty]

theorem Consistent.handle_lt (h : s.Consistent spare) {name : String} (hl : s.handles.lookup name = some n) :
    n < s.channels.length :=
  h.placed _ (Ledger.mem_of_lookup hl)

theorem Consistent.handles_pos (h : s.Consistent spare) {name : String} {c : Channel}
    (hl : s.handles.lookup name = some n) (hc : s.channels[n]? = some c) : 0 < c.handles := by
  have hpos : 0 < s.handles.countP (·.2 = n) :=
    List.countP_pos_iff.2 ⟨_, Ledger.mem_of_lookup hl, decide_eq_true rfl⟩
  have hcount := h.counted n c hc
  omega

theorem getElem?_onChannel (s : State) (n m : Nat) (f : Channel → Channel) :
    (s.onChannel n f).channels[m]? = (s.channels[m]?).map fun c => if n = m then f c else c :=
  List.getElem?_modify ..

theorem sees_onChannel {w : Waiter} {f : Channel → Channel} (h : s.Sees w)
    (hf : ∀ c, s.channels[n]? = some c → w.Fits c → w.Fits (f c)) : (s.onChannel n f).Sees w := by
  obtain ⟨c, hc, hw⟩ := h
  refine ⟨if n = w.channel then f c else c, by rw [getElem?_onChannel, hc]; rfl, ?_⟩
  split
  · rename_i he
    exact hf c (he ▸ hc) hw
  · exact hw

/-- Dropping a name takes one from the count of its channel and nothing from others. -/
theorem countP_filter_ne (l : List (String × Nat)) (name : String) (n m : Nat) (hn : (l.map (·.1)).Nodup)
    (hl : l.lookup name = some n) :
    l.countP (·.2 = m) = (l.filter (·.1 ≠ name)).countP (·.2 = m) + if n = m then 1 else 0 := by
  induction l with
  | nil => cases hl
  | cons e l ih =>
    obtain ⟨k, v⟩ := e
    obtain ⟨hk, hn⟩ := List.nodup_cons.1 hn
    rw [List.lookup_cons] at hl
    by_cases he : name = k
    · subst he
      have hv : v = n := by simpa using hl
      subst hv
      have hnone : l.lookup name = none :=
        List.lookup_eq_none_iff.2 fun e he => bne_iff_ne.2 fun h => hk (List.mem_map.2 ⟨e, he, h.symm⟩)
      rw [List.filter_cons_of_neg (by simp), Ledger.filter_ne_of_lookup l name hnone, List.countP_cons]
      simp
    · rw [beq_false_of_ne he] at hl
      rw [List.filter_cons_of_pos (by simpa using Ne.symm he), List.countP_cons, List.countP_cons, ih hn hl]
      omega

theorem handles_dropHandle (s : State) (name : String) :
    (s.dropHandle name).handles = s.handles.filter (·.1 ≠ name) := by
  unfold dropHandle
  split
  · rfl
  · exact (Ledger.filter_ne_of_lookup _ _ ‹_›).symm

theorem length_channels_dropHandle (s : State) (name : String) :
    (s.dropHandle name).channels.length = s.channels.length := by
  unfold dropHandle
  split
  · exact List.length_modify ..
  · rfl

theorem consistent_dropHandle (h : s.Consistent spare) (name : String) : (s.dropHandle name).Consistent spare := by
  unfold dropHandle
  cases hl : s.handles.lookup name with
  | none => exact h
  | some n =>
    refine ⟨?_, ?_, ?_, ?_⟩
    · exact h.names.sublist ((List.filter_sublist).map _)
    · intro e he
      rw [show ({ s.onChannel n Channel.release with handles := _ } : State).channels.length
        = s.channels.length from List.length_modify ..]
      exact h.placed e (List.mem_filter.1 he).1
    · intro m c hc
      rw [show ({ s.onChannel n Channel.release with handles := _ } : State).channels[m]?
        = _ from getElem?_onChannel s n m _, Option.map_eq_some_iff] at hc
      obtain ⟨c, hc, rfl⟩ := hc
      -- The count of a channel and the number of its names go down together.
      have hcount := h.counted m c hc
      rw [countP_filter_ne s.handles name n m h.names hl] at hcount
      by_cases hm : n = m
      · simp only [if_pos hm, Channel.release] at hcount ⊢
        omega
      · simpa only [if_neg hm, Nat.add_zero] using hcount
    · intro e he
      exact sees_onChannel (h.seen e he) fun _ _ => Waiter.fits_release

theorem consistent_nameHandle (h : s.Consistent (some n)) (hn : n < s.channels.length) (name : String) :
    (s.nameHandle name n).Consistent none := by
  have hd := consistent_dropHandle h name
  have hfresh : ∀ e ∈ (s.dropHandle name).handles, e.1 ≠ name := by
    intro e he
    rw [handles_dropHandle] at he
    exact of_decide_eq_true (List.mem_filter.1 he).2
  refine ⟨?_, ?_, ?_, hd.seen⟩
  · refine List.nodup_cons.2 ⟨fun hm => ?_, hd.names⟩
    obtain ⟨e, he, heq⟩ := List.mem_map.1 hm
    exact hfresh e he heq
  · intro e he
    rcases List.mem_cons.1 he with rfl | he
    · exact (length_channels_dropHandle s name).symm ▸ hn
    · exact hd.placed e he
  · intro m c hc
    rw [hd.counted m c hc]
    simp only [nameHandle, List.countP_cons, Option.some.injEq, decide_eq_true_eq, reduceCtorEq, if_false]
    omega

theorem consistent_nameWaiter (h : s.Consistent none) (name : String) {w : Waiter} (hw : s.Sees w) :
    (s.nameWaiter name w).Consistent none := by
  refine ⟨h.names, h.placed, h.counted, fun e he => ?_⟩
  rcases List.mem_cons.1 he with rfl | he
  · exact hw
  · exact h.seen e (List.mem_filter.1 he).1

theorem consistent_trigger (h : s.Consistent none) {name : String} (hl : s.handles.lookup name = some n) :
    (s.onChannel n Channel.trigger).Consistent none := by
  refine ⟨h.names, fun e he => (List.length_modify ..).symm ▸ h.placed e he, fun m c hc => ?_, fun e he => ?_⟩
  · rw [getElem?_onChannel, Option.map_eq_some_iff] at hc
    obtain ⟨c, hc, rfl⟩ := hc
    refine Eq.trans ?_ (h.counted m c hc)
    split <;> rfl
  · exact sees_onChannel (h.seen e he) fun c hc hw => Waiter.fits_trigger hw (h.handles_pos hl hc)

theorem consistent_share (h : s.Consistent none) {name : String} (hl : s.handles.lookup name = some n) :
    (s.onChannel n Channel.share).Consistent (some n) := by
  refine ⟨h.names, fun e he => (List.length_modify ..).symm ▸ h.placed e he, fun m c hc => ?_, fun e he => ?_⟩
  · rw [getElem?_onChannel, Option.map_eq_some_iff] at hc
    obtain ⟨c, hc, rfl⟩ := hc
    have hcount := h.counted m c hc
    by_cases hm : n = m
    · simp only [Channel.share, hcount, hm]; rfl
    · simp only [if_neg hm, hcount, Option.some.injEq]; rfl
  · exact sees_onChannel (h.seen e he) fun c hc hw => Waiter.fits_share hw (h.handles_pos hl hc)

theorem consistent_new (h : s.Consistent none) :
    Consistent (some s.channels.length) { s with channels := s.channels ++ [Channel.fresh] } := by
  refine ⟨h.names, fun e he => ?_, fun m c hc => ?_, fun e he => ?_⟩
  · rw [List.length_append]; exact Nat.lt_add_right _ (h.placed e he)
  · rcases Nat.lt_trichotomy m s.channels.length with hm | hm | hm
    · rw [List.getElem?_append_left hm] at hc
      rw [h.counted m c hc, if_neg (by simp), if_neg (by simp; omega)]
    · subst hm
      -- The new channel counts the one handle that has no name yet.
      have hc : Channel.fresh = c := by simpa using hc
      have hnone : s.handles.countP (·.2 = s.channels.length) = 0 :=
        List.countP_eq_zero.2 fun e he => by have := h.placed e he; simp; omega
      rw [hnone, ← hc, if_pos rfl]; rfl
    · rw [List.getElem?_eq_none (by simp; omega)] at hc; cases hc
  · obtain ⟨c, hc, hw⟩ := h.seen e he
    exact ⟨c, by rw [List.getElem?_append_left (List.getElem?_eq_some_iff.1 hc).1]; exact hc, hw⟩

/-! ## Steps and the ledger -/

theorem given_ledger (s : State) (n : Nat) : s.ledger.given[n]? = (s.channels[n]?).map (·.triggered) :=
  List.getElem?_map ..

theorem ledger_onChannel (s : State) (n : Nat) (f : Channel → Channel) (hf : ∀ c, (f c).triggered = c.triggered) :
    (s.onChannel n f).ledger = s.ledger := by
  have hgiven : (s.onChannel n f).channels.map (·.triggered) = s.channels.map (·.triggered) := by
    refine List.ext_getElem? fun m => ?_
    rw [List.getElem?_map, List.getElem?_map, getElem?_onChannel, Option.map_map]
    congr 1
    funext c
    simp only [Function.comp]
    split
    · exact hf c
    · rfl
  simp only [ledger, hgiven]
  rfl

theorem ledger_trigger (s : State) (n : Nat) :
    (s.onChannel n Channel.trigger).ledger = { s.ledger with given := s.ledger.given.set n true } := by
  have hgiven : (s.onChannel n Channel.trigger).channels.map (·.triggered)
      = (s.channels.map (·.triggered)).set n true := by
    refine List.ext_getElem? fun m => ?_
    rw [List.getElem?_map, getElem?_onChannel, List.getElem?_set, List.getElem?_map, Option.map_map]
    by_cases hm : n = m
    · subst hm
      cases hc : s.channels[n]? with
      | none => simp [List.getElem?_eq_none_iff.1 hc]
      | some c => simp [(List.getElem?_eq_some_iff.1 hc).1, Channel.trigger]
    · cases hc : s.channels[m]? <;> simp [hm]
  simp only [ledger, hgiven]
  rfl

theorem ledger_dropHandle (s : State) (name : String) :
    (s.dropHandle name).ledger = { s.ledger with handles := s.handles.filter (·.1 ≠ name) } := by
  unfold dropHandle
  split
  · have hrelease := ledger_onChannel s ‹_› Channel.release fun _ => rfl
    exact congrArg (fun l : Ledger => { l with handles := s.handles.filter (·.1 ≠ name) }) hrelease
  · rw [Ledger.filter_ne_of_lookup _ _ ‹_›]
    rfl

theorem ledger_nameHandle (s : State) (name : String) (n : Nat) :
    (s.nameHandle name n).ledger = s.ledger.nameHandle name n := by
  have hdrop := ledger_dropHandle s name
  simp only [ledger, nameHandle, Ledger.nameHandle, Ledger.mk.injEq] at hdrop ⊢
  exact ⟨hdrop.1, by rw [hdrop.2.1], hdrop.2.2⟩

theorem filter_ledger_waiters (s : State) (name : String) :
    s.ledger.waiters.filter (·.1 ≠ name)
      = (s.waiters.filter (·.1 ≠ name)).map fun e => (e.1, e.2.channel, e.2.hasResolved) := by
  rw [ledger, List.filter_map]
  rfl

theorem ledger_nameWaiter (s : State) (name : String) (w : Waiter) :
    (s.nameWaiter name w).ledger = s.ledger.nameWaiter name w.channel w.hasResolved := by
  simp only [Ledger.nameWaiter, filter_ledger_waiters]
  rfl

theorem lookup_ledger_waiters (s : State) (name : String) :
    s.ledger.waiters.lookup name = (s.waiters.lookup name).map fun w => (w.channel, w.hasResolved) :=
  Ledger.lookup_map_snd (fun w : Waiter => (w.channel, w.hasResolved)) s.waiters name

/-- A step of a state and a step of a ledger come to the same. -/
def Matches (a : State × Answer) (b : Ledger × Answer) : Prop :=
  a.1.Consistent none ∧ a.1.ledger = b.1 ∧ a.2 = b.2

theorem withHandle_matches (h : s.Consistent none) (name : String) {f : Nat → Channel → State × Answer}
    {g : Nat → Bool → Ledger × Answer}
    (hfg : ∀ n c, s.handles.lookup name = some n → s.channels[n]? = some c → Matches (f n c) (g n c.triggered)) :
    Matches (s.withHandle name f) (s.ledger.withHandle name g) := by
  unfold withHandle Ledger.withHandle
  rw [show s.ledger.handles = s.handles from rfl]
  cases hl : s.handles.lookup name with
  | none => exact ⟨h, rfl, rfl⟩
  | some n =>
    have hc := List.getElem?_eq_getElem (h.handle_lt hl)
    simp only [given_ledger, hc, Option.map_some]
    exact hfg n _ hl hc

/-- A step of a consistent state does what its ledger says. -/
theorem step_matches (h : s.Consistent none) (x : Step) : Matches (s.step x) (s.ledger.step x) := by
  cases x with
  | new name =>
    refine ⟨consistent_nameHandle (consistent_new h) (by simp) name, ?_, rfl⟩
    refine (ledger_nameHandle ..).trans ?_
    simp [Ledger.step, ledger, Channel.fresh]
  | clone copy source =>
    refine withHandle_matches h source fun n c hl hc => ⟨?_, ?_, rfl⟩
    · exact consistent_nameHandle (consistent_share h hl) ((List.length_modify ..).symm ▸ h.handle_lt hl) copy
    · rw [ledger_nameHandle, ledger_onChannel s n Channel.share fun _ => rfl]
  | trigger name =>
    exact withHandle_matches h name fun n c hl hc => ⟨consistent_trigger h hl, ledger_trigger s n, rfl⟩
  | isTriggered name => exact withHandle_matches h name fun n c hl hc => ⟨h, rfl, rfl⟩
  | wait waiter name =>
    refine withHandle_matches h name fun n c hl hc => ⟨?_, ledger_nameWaiter s waiter _, rfl⟩
    exact consistent_nameWaiter h waiter ⟨c, hc, Waiter.fits_start n c⟩
  | poll waiter =>
    simp only [step, Ledger.step, lookup_ledger_waiters]
    cases hw : s.waiters.lookup waiter with
    | none => exact ⟨h, rfl, rfl⟩
    | some w =>
      -- What the waiter saw of its channel is what the flag says.
      obtain ⟨c, hc, hfit⟩ := h.seen _ (Ledger.mem_of_lookup hw)
      obtain ⟨hfit, hchannel, hresolved, hanswer⟩ := Waiter.poll_of_fits hfit
      simp only [Option.map_some, given_ledger, hc]
      refine ⟨consistent_nameWaiter h waiter ⟨c, by rw [hchannel]; exact hc, hfit⟩, ?_, by rw [hanswer]⟩
      rw [ledger_nameWaiter, hchannel, hresolved]
  | drop name =>
    exact withHandle_matches h name fun n c hl hc => ⟨consistent_dropHandle h name, ledger_dropHandle s name, rfl⟩
  | dropWaiter waiter =>
    simp only [step, Ledger.step, lookup_ledger_waiters]
    cases hw : s.waiters.lookup waiter with
    | none => exact ⟨h, rfl, rfl⟩
    | some w =>
      refine ⟨⟨h.names, h.placed, h.counted, fun e he => h.seen e (List.mem_filter.1 he).1⟩, ?_, rfl⟩
      simp only [Option.map_some, filter_ledger_waiters]
      rfl

/-- A run of a consistent state answers what its ledger answers. -/
theorem run_eq_ledger_run (h : s.Consistent none) (steps : List Step) : s.run steps = s.ledger.run steps := by
  induction steps generalizing s with
  | nil => rfl
  | cons x steps ih =>
    obtain ⟨hc, hl, ha⟩ := step_matches h x
    rw [run, Ledger.run, ih hc, hl, ha]

end State

end AgentHost.Shutdown
