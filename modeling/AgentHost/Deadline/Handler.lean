import AgentHost.Deadline.Body
/-!
# Answering in time

A `Handler` sleeps, works and reads the body, and then answers. While it sleeps
or waits for a frame, other things go on; while it works, nothing else does.

`Handler.run` runs a handler under two limits: one on each silence of the body,
one on the answer. The limit on the answer is looked at when the handler starts,
and when a wait is over. So it ends a wait, but it does not end work, and an
answer that is there when work is done is given, however long that took. A wait
that is over exactly at the limit comes too late.
-/

namespace AgentHost.Deadline

/-- What is done to answer a request. -/
inductive Handler (α : Type) where
  | answer (a : α)
  | sleep (time : Nat) (next : Handler α)
  | work (time : Nat) (next : Handler α)
  | read (next : Except ReadError String → Handler α)

/-- What came of a request: the answer, or nothing where time ran out; when that
was; and what was seen of the body until then. -/
structure Outcome (α : Type) where
  answer? : Option α
  time : Nat
  events : List (Nat × Event)

/-- The limits on a request in milliseconds. -/
structure Limits where
  read : Nat
  write : Nat
  deriving DecidableEq, Repr

namespace Outcome

/-- Time ran out. -/
def late {α : Type} (time : Nat) : Outcome α := ⟨none, time, []⟩

/-- The outcome with events in front. -/
def after {α : Type} (events : List (Nat × Event)) (o : Outcome α) : Outcome α :=
  { o with events := events ++ o.events }

end Outcome

/-- The events of a read that starts at a time. -/
def shift (start : Nat) (events : List (Nat × Event)) : List (Nat × Event) :=
  events.map fun (time, event) => (start + time, event)

/-- A wait of that length is over before the limit. One of no length is no wait. -/
def inTime (limit now wait : Nat) : Bool := wait = 0 || now + wait < limit

namespace Handler

/-- Runs a handler from a time on. -/
def runFrom {α : Type} (limits : Limits) (now : Nat) (body : Body) : Handler α → Outcome α
  | .answer a => ⟨some a, now, []⟩
  | .sleep time next =>
    if inTime limits.write now time then runFrom limits (now + time) body next
    else .late (max now limits.write)
  | .work time next => runFrom limits (now + time) body next
  | .read next =>
    let reading := body.read limits.read
    if inTime limits.write now reading.time then
      (runFrom limits (now + reading.time) .spent (next reading.result)).after
        (shift now reading.events)
    else
      (Outcome.late (max now limits.write)).after
        (shift now (reading.events.filter fun e => inTime limits.write now e.1))

/-- Runs a handler. -/
def run {α : Type} (limits : Limits) (body : Body) (h : Handler α) : Outcome α :=
  if limits.write = 0 then .late 0 else runFrom limits 0 body h

end Handler

end AgentHost.Deadline
