import AgentHost.Serving.Handoff
/-!
# Serving in time

A schedule says when requests come and when their responses are complete, when
shutdown is asked for, and how long the grace window is. Time is counted in
milliseconds from the start of serving; shutdown may have been asked for before.
In every moment the events of that moment happen first, then both parties do what
they can, then the grace window is looked at: it begins when the caller starts to
drain.
-/

namespace AgentHost.Serving

/-- When a request comes, and when its response is complete. -/
structure Visit where
  start : Nat
  finish : Nat
  isOrdered : start ≤ finish := by decide
  deriving DecidableEq, Repr

/-- What happens around a server. -/
structure Schedule where
  visits : List Visit
  /-- Shutdown was asked for before serving began. -/
  early : Bool
  triggers : List Nat
  grace : Duration

/-- The state in a moment, and when draining began. -/
structure Moment where
  state : State
  since : Option Nat

namespace Schedule

/-- The visits with their numbers. -/
def numbered (s : Schedule) : List (Nat × Visit) := s.visits.zipIdx.map fun (v, n) => (n, v)

/-- The requests that come at a time. -/
def coming (s : Schedule) (t : Nat) : List Nat :=
  (s.numbered.filter fun (_, v) => v.start = t).map (·.1)

/-- The requests whose responses are complete at a time. -/
def leaving (s : Schedule) (t : Nat) : List Nat :=
  (s.numbered.filter fun (_, v) => v.finish = t).map (·.1)

/-- Everything that happens at a time. -/
def events (s : Schedule) (t : Nat) : List Event :=
  (s.coming t).map .arrive ++ (s.leaving t).map .finish
    ++ (if s.triggers.contains t then [.trigger] else [])

/-- When draining began, seen at a time. -/
def drainStart (since : Option Nat) (t : Nat) (state : State) : Option Nat :=
  match since, state.caller with
  | none, .draining => some t
  | _, _ => since

/-- The grace window is over. -/
def isOver (s : Schedule) (since : Option Nat) (t : Nat) : Bool :=
  match since with
  | some start => start + s.grace.millis ≤ t
  | none => false

/-- What a moment makes of the state before it. -/
def advance (s : Schedule) (t : Nat) (m : Moment) : Moment :=
  let state := (m.state.run s.grace (s.events t)).settle s.grace
  let since := drainStart m.since t state
  ⟨if s.isOver since t then state.step s.grace .elapse else state, since⟩

/-- The moments of a schedule. -/
def moment (s : Schedule) : Nat → Moment
  | 0 => s.advance 0 ⟨State.start s.early, none⟩
  | t + 1 => s.advance (t + 1) (s.moment t)

/-- The result that was returned by a time. -/
def result? (s : Schedule) (t : Nat) : Option Result := (s.moment t).state.caller.result?

end Schedule

end AgentHost.Serving
