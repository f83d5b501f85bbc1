import AgentHost.Serving.Handoff
import AgentHost.Shutdown.Run
/-!
# Serving until a signal

The caller of the task waits for a shutdown signal among everything else that is
done with signals meanwhile: handles on it are made, used and dropped, and others
wait, too. The caller looks at the signal by a poll of its own waiter, whose name
nobody else uses. So there is nothing between it and the signal but that poll.
-/

namespace AgentHost.Serving

/-- The two parties that serve, and the signals around them. -/
structure Signalled where
  signals : Shutdown.State
  parties : State

namespace Signalled

/-- What may happen: something is done with a signal, or a party takes a step. -/
inductive Act where
  | signal (step : Shutdown.Step)
  | party (event : Event)
  deriving DecidableEq, Repr

/-- Serving begins, until the signal of a handle. -/
def start (signals : Shutdown.State) (waiter handle : String) : Signalled :=
  ⟨(signals.step (.wait waiter handle)).1, .start false⟩

/-- The caller looks, and hears the signal if it is there. -/
def look (grace : Duration) (waiter : String) (s : Signalled) : Signalled :=
  let (signals, answer) := s.signals.step (.poll waiter)
  ⟨signals, { s.parties with triggered := answer.isResolved }.step grace .hear⟩

/-- One step. The parties do not ask for shutdown: that is done with a handle. -/
def step (grace : Duration) (waiter : String) (s : Signalled) : Act → Signalled
  | .signal x => if x.isOn waiter then s else { s with signals := (s.signals.step x).1 }
  | .party .trigger => s
  | .party .hear => s.look grace waiter
  | .party e => { s with parties := s.parties.step grace e }

/-- A run. -/
def run (grace : Duration) (waiter : String) (s : Signalled) (acts : List Act) : Signalled :=
  acts.foldl (step grace waiter) s

end Signalled

end AgentHost.Serving
