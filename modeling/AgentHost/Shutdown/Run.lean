import AgentHost.Shutdown.Signal
/-!
# Runs with signals and waiters

Handles and waiters have names. A step makes, uses or drops one of them and
answers what that shows. A name that is made again replaces the old one, which is
dropped.
-/

namespace AgentHost.Shutdown

/-- A step of a run. -/
inductive Step where
  | new (signal : String)
  | clone (copy source : String)
  | trigger (signal : String)
  | isTriggered (signal : String)
  | wait (waiter signal : String)
  | poll (waiter : String)
  | drop (signal : String)
  | dropWaiter (waiter : String)
  deriving DecidableEq, Repr

/-- The step makes, uses or drops the waiter of that name. -/
def Step.isOn (waiter : String) : Step → Bool
  | .wait name _ | .poll name | .dropWaiter name => name = waiter
  | .new _ | .clone .. | .trigger _ | .isTriggered _ | .drop _ => false

/-- What a step shows. -/
inductive Answer where
  | ok
  | missing
  | flag (b : Bool)
  | poll (p : Poll)
  deriving DecidableEq, Repr

/-- The answer says that the signal is there. -/
def Answer.isResolved : Answer → Bool
  | .poll p => p ≠ .pending
  | .ok | .missing | .flag _ => false

/-- The signals, the names of their handles, and the waiters. -/
structure State where
  channels : List Channel
  handles : List (String × Nat)
  waiters : List (String × Waiter)

namespace State

/-- There is nothing. -/
def empty : State := ⟨[], [], []⟩

/-- Changes a channel. -/
def onChannel (s : State) (n : Nat) (f : Channel → Channel) : State :=
  { s with channels := s.channels.modify n f }

/-- Drops the handle of that name, if there is one. -/
def dropHandle (s : State) (name : String) : State :=
  match s.handles.lookup name with
  | some n => { s.onChannel n Channel.release with handles := s.handles.filter (·.1 ≠ name) }
  | none => s

/-- Gives a handle on a channel a name. -/
def nameHandle (s : State) (name : String) (n : Nat) : State :=
  let s := s.dropHandle name
  { s with handles := (name, n) :: s.handles }

/-- Gives a waiter a name. -/
def nameWaiter (s : State) (name : String) (w : Waiter) : State :=
  { s with waiters := (name, w) :: s.waiters.filter (·.1 ≠ name) }

/-- Does a step with the channel that a handle of that name is on. -/
def withHandle (s : State) (name : String) (f : Nat → Channel → State × Answer) : State × Answer :=
  match s.handles.lookup name with
  | none => (s, .missing)
  | some n =>
    match s.channels[n]? with
    | none => (s, .missing)
    | some c => f n c

/-- One step. -/
def step (s : State) : Step → State × Answer
  | .new name =>
    let n := s.channels.length
    ({ s with channels := s.channels ++ [Channel.fresh] }.nameHandle name n, .ok)
  | .clone copy source => s.withHandle source fun n _ =>
    ((s.onChannel n Channel.share).nameHandle copy n, .ok)
  | .trigger name => s.withHandle name fun n _ => (s.onChannel n Channel.trigger, .ok)
  | .isTriggered name => s.withHandle name fun _ c => (s, .flag c.triggered)
  | .wait waiter name => s.withHandle name fun n _ => (s.nameWaiter waiter (Waiter.start n), .ok)
  | .poll waiter =>
    match s.waiters.lookup waiter with
    | none => (s, .missing)
    | some w =>
      match s.channels[w.channel]? with
      | none => (s, .missing)
      | some c =>
        let (w, answer) := w.poll c
        (s.nameWaiter waiter w, .poll answer)
  | .drop name => s.withHandle name fun _ _ => (s.dropHandle name, .ok)
  | .dropWaiter waiter =>
    match s.waiters.lookup waiter with
    | none => (s, .missing)
    | some _ => ({ s with waiters := s.waiters.filter (·.1 ≠ waiter) }, .ok)

/-- The answers of a run. -/
def run (s : State) : List Step → List Answer
  | [] => []
  | step :: rest => (s.step step).2 :: (s.step step).1.run rest

end State

end AgentHost.Shutdown
