import AgentHost.Deadline.Body
/-!
# Reading what arrives by the clock

A `Delivery` says when the chunks of a body arrive and when it ends, whether
anybody reads it or not. A reader who starts at some time finds what is there
already and waits for the rest. `Delivery.Reads` says what comes of that, and
when: the whole text, unless there is a silence of the limit or longer. Then the
read fails that long after the silence began, which is the later of the last
chunk and the start of the read.
-/

namespace AgentHost.Deadline

/-- What a client sends and when: the chunks with their times, and the time of the
end, if it ever comes. A chunk is never ahead of those in front of it. -/
structure Delivery where
  chunks : List (Nat × String)
  ends : Option Nat

namespace Delivery

/-- What a reader who stands at `now` has to wait for each chunk. -/
def framesFrom (now : Nat) : List (Nat × String) → List Frame
  | [] => []
  | (time, text) :: rest => ⟨time - now, text⟩ :: framesFrom (max now time) rest

/-- When a reader who starts at `start` has these chunks: the later of the last of
them and the start. -/
def reached (start : Nat) (chunks : List (Nat × String)) : Nat :=
  chunks.foldl (fun now chunk => max now chunk.1) start

/-- What a reader who stands at `now` has to wait for the end. -/
def endingFrom (now : Nat) : Option Nat → Ending
  | some time => .complete (time - now)
  | none => .stalled

/-- The delivery as the body that a reader who starts at `start` meets. -/
def seenFrom (d : Delivery) (start : Nat) : Body :=
  ⟨framesFrom start d.chunks, endingFrom (reached start d.chunks) d.ends⟩

/-- The whole text. -/
def text (d : Delivery) : String := d.chunks.foldr (fun chunk text => chunk.2 ++ text) ""

/-- When something comes next, with these chunks still to come. -/
def next? (ends : Option Nat) : List (Nat × String) → Option Nat
  | [] => ends
  | (time, _) :: _ => some time

/-- A reader who starts at `start` and has the chunks `got` hears nothing for as
long as the limit. -/
def SilentAfter (d : Delivery) (limit start : Nat) (got : List (Nat × String)) : Prop :=
  ∃ rest, d.chunks = got ++ rest ∧ ∀ time ∈ next? d.ends rest, reached start got + limit ≤ time

/-- The silence behind the chunks `got` is the first. -/
structure FirstSilence (d : Delivery) (limit start : Nat) (got : List (Nat × String)) : Prop where
  silent : d.SilentAfter limit start got
  first : ∀ earlier : List (Nat × String), earlier.length < got.length → ¬ d.SilentAfter limit start earlier

/-- What comes of reading the delivery from `start` on, and when. -/
inductive Reads (d : Delivery) (limit start : Nat) : Nat → Except ReadError String → Prop
  | whole {time : Nat} (ends : d.ends = some time) (steady : ∀ got, ¬ d.SilentAfter limit start got) :
    Reads d limit start (max (reached start d.chunks) time) (.ok d.text)
  | silent {got : List (Nat × String)} (h : d.FirstSilence limit start got) :
    Reads d limit start (reached start got + limit) (.error .silent)

variable {limit start time : Nat} {ends : Option Nat} {d : Delivery} {result : Except ReadError String}

/-! ## Silences -/

theorem reached_cons (start : Nat) (chunk : Nat × String) (rest : List (Nat × String)) :
    reached start (chunk :: rest) = reached (max start chunk.1) rest := rfl

theorem silentAfter_nil {chunks : List (Nat × String)} :
    (⟨chunks, ends⟩ : Delivery).SilentAfter limit start [] ↔ ∀ time ∈ next? ends chunks, start + limit ≤ time := by
  constructor
  · rintro ⟨rest, rfl, h⟩
    exact h
  · intro h
    exact ⟨chunks, rfl, h⟩

theorem silentAfter_cons {chunk other : Nat × String} {rest got : List (Nat × String)} :
    (⟨chunk :: rest, ends⟩ : Delivery).SilentAfter limit start (other :: got) ↔
      other = chunk ∧ (⟨rest, ends⟩ : Delivery).SilentAfter limit (max start chunk.1) got := by
  constructor
  · rintro ⟨more, hchunks, h⟩
    obtain ⟨rfl, hrest⟩ := List.cons.inj hchunks
    exact ⟨rfl, more, hrest, h⟩
  · rintro ⟨rfl, more, hrest, h⟩
    exact ⟨more, congrArg _ hrest, h⟩

/-- Of two silences with as many chunks in front of them both are the same. -/
theorem SilentAfter.eq_of_length {got other : List (Nat × String)} (h : d.SilentAfter limit start got)
    (h' : d.SilentAfter limit start other) (hlength : got.length = other.length) : got = other := by
  obtain ⟨rest, hchunks, -⟩ := h
  obtain ⟨rest', hchunks', -⟩ := h'
  exact (List.append_inj (hchunks.symm.trans hchunks') hlength).1

theorem FirstSilence.unique {got other : List (Nat × String)} (h : d.FirstSilence limit start got)
    (h' : d.FirstSilence limit start other) : got = other := by
  refine h.silent.eq_of_length h'.silent (Nat.le_antisymm (Nat.le_of_not_lt ?_) (Nat.le_of_not_lt ?_))
  · intro hlt
    exact h.first other hlt h'.silent
  · intro hlt
    exact h'.first got hlt h.silent

/-- There is one outcome of a read at most. -/
theorem Reads.unique {time' : Nat} {result' : Except ReadError String} (h : d.Reads limit start time result)
    (h' : d.Reads limit start time' result') : time = time' ∧ result = result' := by
  cases h with
  | whole hends hsteady =>
    cases h' with
    | whole hends' =>
      obtain rfl := Option.some.inj (hends.symm.trans hends')
      exact ⟨rfl, rfl⟩
    | silent hfirst => exact absurd hfirst.silent (hsteady _)
  | silent hfirst =>
    cases h' with
    | whole _ hsteady => exact absurd hfirst.silent (hsteady _)
    | silent hfirst' =>
      obtain rfl := hfirst.unique hfirst'
      exact ⟨rfl, rfl⟩

theorem le_reached (start : Nat) (chunks : List (Nat × String)) : start ≤ reached start chunks := by
  induction chunks generalizing start with
  | nil => exact Nat.le_refl start
  | cons chunk rest ih => exact Nat.le_trans (Nat.le_max_left ..) (ih (max start chunk.1))

theorem le_reached_of_mem {chunk : Nat × String} {chunks : List (Nat × String)} (h : chunk ∈ chunks) (start : Nat) :
    chunk.1 ≤ reached start chunks := by
  induction chunks generalizing start with
  | nil => cases h
  | cons first rest ih =>
    rcases List.mem_cons.1 h with rfl | hrest
    · exact Nat.le_trans (Nat.le_max_right ..) (le_reached _ rest)
    · exact ih hrest (max start first.1)

/-- A body that is over within the limit leaves no room for a silence. -/
theorem steady_of_within (hends : d.ends = some time) (h : max (reached start d.chunks) time < start + limit)
    (got : List (Nat × String)) : ¬ d.SilentAfter limit start got := by
  rintro ⟨rest, hchunks, hsilent⟩
  have hstart := le_reached start got
  cases rest with
  | nil =>
    have := hsilent time hends
    omega
  | cons chunk rest =>
    have hnext := hsilent chunk.1 rfl
    have hchunk : chunk.1 ≤ reached start d.chunks := le_reached_of_mem (by simp [hchunks]) start
    omega

/-! ## The reader -/

/-- A chunk that comes in time is put in front of what comes of the rest. -/
theorem Reads.cons {arrival : Nat} (text : String) {rest : List (Nat × String)} (harrival : arrival < start + limit)
    (h : (⟨rest, ends⟩ : Delivery).Reads limit (max start arrival) time result) :
    (⟨(arrival, text) :: rest, ends⟩ : Delivery).Reads limit start time (result.map (text ++ ·)) := by
  have hfront : ¬ (⟨(arrival, text) :: rest, ends⟩ : Delivery).SilentAfter limit start [] := by
    intro hsilent
    have := silentAfter_nil.1 hsilent arrival rfl
    omega
  cases h with
  | whole hends hsteady =>
    refine .whole (d := ⟨(arrival, text) :: rest, ends⟩) hends fun got => ?_
    cases got with
    | nil => exact hfront
    | cons other got =>
      intro hsilent
      exact hsteady got (silentAfter_cons.1 hsilent).2
  | @silent got hfirst =>
    have hlater : (⟨(arrival, text) :: rest, ends⟩ : Delivery).FirstSilence limit start ((arrival, text) :: got) := by
      refine ⟨silentAfter_cons.2 ⟨rfl, hfirst.silent⟩, fun earlier hlt => ?_⟩
      cases earlier with
      | nil => exact hfront
      | cons other earlier =>
        intro hsilent
        exact hfirst.first earlier (Nat.lt_of_succ_lt_succ hlt) (silentAfter_cons.1 hsilent).2
    exact .silent hlater

/-- A silence right at the start is where the read fails. -/
theorem reads_of_silent (h : d.SilentAfter limit start []) : d.Reads limit start (start + limit) (.error .silent) := by
  have hfirst : d.FirstSilence limit start [] := ⟨h, fun _ hlt => absurd hlt (Nat.not_lt_zero _)⟩
  exact .silent hfirst

/-- The end of the body, met by a reader who stands at `start + now`. -/
theorem reads_readEnd (hlimit : 0 < limit) (start now : Nat) (ends : Option Nat) :
    let r := Body.readEnd limit now (endingFrom (start + now) ends)
    (⟨[], ends⟩ : Delivery).Reads limit (start + now) (start + r.time) r.result := by
  cases ends with
  | none =>
    have hsilent : (⟨[], none⟩ : Delivery).SilentAfter limit (start + now) [] :=
      silentAfter_nil.2 fun _ hnever => absurd hnever (Option.not_mem_none _)
    simpa [endingFrom, Body.readEnd, Reading.failed, Nat.add_assoc] using reads_of_silent hsilent
  | some time =>
    by_cases htime : time < start + now + limit
    · have hsteady : ∀ got, ¬ (⟨[], some time⟩ : Delivery).SilentAfter limit (start + now) got := by
        rintro got ⟨rest, hchunks, h⟩
        obtain ⟨rfl, rfl⟩ := List.append_eq_nil_iff.1 hchunks.symm
        have := h time rfl
        simp only [reached, List.foldl_nil] at this
        omega
      have hwait : time - (start + now) < limit := by omega
      have hat : max (start + now) time = start + (now + (time - (start + now))) := by omega
      have hwhole := Reads.whole (d := ⟨[], some time⟩) rfl hsteady
      simp only [reached, List.foldl_nil, hat] at hwhole
      simp only [endingFrom, Body.readEnd, hwait, if_true]
      exact hwhole
    · have hsilent : (⟨[], some time⟩ : Delivery).SilentAfter limit (start + now) [] := by
        refine silentAfter_nil.2 fun t ht => ?_
        cases ht
        omega
      have hwait : ¬ time - (start + now) < limit := by omega
      simpa [endingFrom, Body.readEnd, hwait, Reading.failed, Nat.add_assoc] using reads_of_silent hsilent

/-- The rest of the body, read by a reader who stands at `start + now`. -/
theorem reads_readFrom (hlimit : 0 < limit) (start now : Nat) (chunks : List (Nat × String)) (ends : Option Nat) :
    let ending := endingFrom (reached (start + now) chunks) ends
    let r := Body.readFrom limit now ending (framesFrom (start + now) chunks)
    (⟨chunks, ends⟩ : Delivery).Reads limit (start + now) (start + r.time) r.result := by
  induction chunks generalizing now with
  | nil => exact reads_readEnd hlimit start now ends
  | cons chunk rest ih =>
    obtain ⟨arrival, text⟩ := chunk
    have hat : start + (now + (arrival - (start + now))) = max (start + now) arrival := by omega
    have hrest := ih (now + (arrival - (start + now)))
    rw [hat] at hrest
    by_cases harrival : arrival < start + now + limit
    · have hwait : arrival - (start + now) < limit := by omega
      simpa only [framesFrom, Body.readFrom, hwait, if_true, Reading.afterFrame, reached_cons] using
        Reads.cons text harrival hrest
    · have hwait : ¬ arrival - (start + now) < limit := by omega
      have hsilent : (⟨(arrival, text) :: rest, ends⟩ : Delivery).SilentAfter limit (start + now) [] := by
        refine silentAfter_nil.2 fun t ht => ?_
        cases ht
        omega
      simpa [framesFrom, Body.readFrom, hwait, Reading.failed, Nat.add_assoc] using reads_of_silent hsilent

/-- Reading a delivery under a limit has the outcome that the delivery says. -/
theorem reads_read (hlimit : 0 < limit) (d : Delivery) (start : Nat) :
    d.Reads limit start (start + ((d.seenFrom start).read limit).time) ((d.seenFrom start).read limit).result :=
  reads_readFrom hlimit start 0 d.chunks d.ends

/-- A read is over as the delivery says. -/
theorem Reads.read_eq (hlimit : 0 < limit) (h : d.Reads limit start time result) :
    start + ((d.seenFrom start).read limit).time = time ∧ ((d.seenFrom start).read limit).result = result :=
  (reads_read hlimit d start).unique h

end Delivery

/-! ## Failures -/

/-- A read that fails shows its failure when it is over. -/
def Reading.ShowsFailure (r : Reading) : Prop :=
  ∀ cause, r.result = .error cause → (r.time, Event.failure cause) ∈ r.events

namespace Body

theorem showsFailure_failed (time : Nat) (cause : ReadError) : (Reading.failed time cause).ShowsFailure := by
  intro other h
  obtain rfl := Except.error.inj h
  exact List.mem_singleton_self _

theorem showsFailure_readEnd (limit now : Nat) (ending : Ending) : (readEnd limit now ending).ShowsFailure := by
  unfold readEnd
  split
  case h_1 wait =>
    split
    · intro cause h
      cases h
    · exact showsFailure_failed _ _
  case h_2 wait => split <;> exact showsFailure_failed _ _
  case h_3 => exact showsFailure_failed _ _

theorem showsFailure_readFrom (limit now : Nat) (ending : Ending) (frames : List Frame) :
    (readFrom limit now ending frames).ShowsFailure := by
  induction frames generalizing now with
  | nil => exact showsFailure_readEnd limit now ending
  | cons f rest ih =>
    simp only [readFrom]
    split
    · intro cause h
      refine List.mem_cons_of_mem _ (ih (now + f.wait) cause ?_)
      simp only [Reading.afterFrame] at h
      cases hrest : (readFrom limit (now + f.wait) ending rest).result with
      | ok text =>
        rw [hrest] at h
        cases h
      | error e => rwa [hrest] at h
    · exact showsFailure_failed _ _

theorem showsFailure_read (limit : Nat) (b : Body) : (b.read limit).ShowsFailure :=
  showsFailure_readFrom limit 0 b.ending b.frames

end Body

end AgentHost.Deadline
