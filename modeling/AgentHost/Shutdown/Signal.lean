/-!
# The shutdown signal

A `Channel` holds whether shutdown was asked for, how often that was said, and
how many handles can still say it. A `Waiter` remembers the last version of the
channel that it saw. Polled, it looks at the channel if that has a version it did
not see; it resolves when the signal is there, and gives up when no handle is
left.

A signal that has been given is never lost, as a waiter looks before it gives up.
-/

namespace AgentHost.Shutdown

/-- What the handles and waiters of one signal share. -/
structure Channel where
  triggered : Bool
  version : Nat
  handles : Nat
  deriving DecidableEq, Repr

namespace Channel

/-- A new signal with one handle. -/
def fresh : Channel := ⟨false, 0, 1⟩

/-- The signal is given, again or for the first time. -/
def trigger (c : Channel) : Channel := { c with triggered := true, version := c.version + 1 }

/-- One more handle. -/
def share (c : Channel) : Channel := { c with handles := c.handles + 1 }

/-- One handle fewer. -/
def release (c : Channel) : Channel := { c with handles := c.handles - 1 }

end Channel

/-- How far a waiter has come. -/
inductive Phase where
  | waiting
  | resolved
  | abandoned
  deriving DecidableEq, Repr

/-- Someone who waits for a signal. -/
structure Waiter where
  channel : Nat
  /-- The version that was looked at last. -/
  seen : Option Nat
  phase : Phase
  deriving DecidableEq, Repr

/-- What a poll answers. -/
inductive Poll where
  | pending
  | ready
  | done
  deriving DecidableEq, Repr

namespace Waiter

/-- A waiter on a channel that has not looked yet. -/
def start (channel : Nat) : Waiter := ⟨channel, none, .waiting⟩

/-- Waits on, unless no handle is left. -/
def suspend (w : Waiter) (c : Channel) : Waiter :=
  if c.handles = 0 then { w with phase := .abandoned } else w

/-- Looks at the channel. -/
def poll (w : Waiter) (c : Channel) : Waiter × Poll :=
  match w.phase with
  | .resolved => (w, .done)
  | .abandoned => (w, .pending)
  | .waiting =>
    if w.seen = some c.version then (w.suspend c, .pending)
    else
      let w := { w with seen := some c.version }
      if c.triggered then ({ w with phase := .resolved }, .ready)
      else (w.suspend c, .pending)

end Waiter

end AgentHost.Shutdown
