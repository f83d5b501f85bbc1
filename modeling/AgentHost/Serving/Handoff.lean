import AgentHost.Server.Error
/-!
# Serving and stopping

Two parties serve. The task accepts connections and answers requests. The caller
waits, for the shutdown signal or for the end of the task, whichever it sees
first. On the signal it tells the task to stop and waits for its end, but no
longer than the grace window; then it aborts the task.

A word to stop is held by the caller, and is sent at most once. A caller that
goes away, or that returns, drops a word that it did not send, and this too tells
the task to stop. A task that was told accepts nothing more, and ends when no
request is in flight.

`State.step` is one step of one of the parties or of the world around them. A
step that is not possible changes nothing, so that every list of events is a run.
-/

namespace AgentHost.Serving

/-- Why the task ends badly. -/
inductive Failure where
  /-- The listener fails. -/
  | listener (cause : IoError)
  /-- The task itself breaks down. -/
  | crash (cause : String)
  deriving DecidableEq, Repr

/-- The error that a failure is reported as. -/
def Failure.error : Failure → ServerError
  | .listener cause => .serve cause
  | .crash cause => .task cause

/-- What the task does. -/
inductive Task where
  | accepting
  /-- Accepts nothing more and waits for the requests in flight. -/
  | closing
  | ended (failure : Option Failure)
  | aborted
  deriving DecidableEq, Repr

/-- The task is aborted, if it has not ended before. -/
def Task.abort : Task → Task
  | .accepting | .closing | .aborted => .aborted
  | .ended failure => .ended failure

/-- Where the word to stop is. -/
inductive Word where
  | held
  | sent
  | dropped
  deriving DecidableEq, Repr

/-- How serving came to its end. -/
inductive Result where
  | done
  | failed (cause : ServerError)
  deriving DecidableEq, Repr

/-- What the caller does. -/
inductive Caller where
  /-- Waits for the signal or the end of the task. -/
  | waiting
  /-- Waits for the end of the task or of the grace window. -/
  | draining
  | returned (result : Result)
  /-- Went away before there was a result. -/
  | gone
  deriving DecidableEq

namespace Caller

/-- The result that was returned. -/
def result? : Caller → Option Result
  | .returned result => some result
  | _ => none

/-- The caller is still there and has no result yet. -/
def isBusy : Caller → Bool
  | .waiting | .draining => true
  | .returned _ | .gone => false

end Caller

/-- The result where the task ends while nobody asked for it. -/
def endedEarly : Option Failure → Result
  | some failure => .failed failure.error
  | none => .failed .stopped

/-- The result where the task ends after it was told to stop. -/
def endedDrained : Option Failure → Result
  | some failure => .failed failure.error
  | none => .done

/-- The caller, the task and what is between them. -/
structure State where
  triggered : Bool
  caller : Caller
  word : Word
  /-- How often the word was sent. -/
  words : Nat
  task : Task
  /-- How often the caller took the end of the task. -/
  joins : Nat
  accepted : List Nat
  inFlight : List Nat
  answered : List Nat
  deriving DecidableEq

/-- What may happen. -/
inductive Event where
  /-- Shutdown is asked for. -/
  | trigger
  /-- A request comes. -/
  | arrive (request : Nat)
  /-- The response to a request is complete. -/
  | finish (request : Nat)
  /-- The task ends by itself. -/
  | fail (failure : Option Failure)
  /-- The task sees that it has to stop. -/
  | observe
  /-- The task ends as it has nothing left to do. -/
  | close
  /-- The caller sees the signal. -/
  | hear
  /-- The caller sees the end of the task. -/
  | join
  /-- The grace window is over. -/
  | elapse
  /-- The caller goes away. -/
  | drop
  deriving DecidableEq, Repr

namespace State

/-- The task was just started. `triggered` says whether shutdown was asked for
before. -/
def start (triggered : Bool) : State :=
  ⟨triggered, .waiting, .held, 0, .accepting, 0, [], [], []⟩

/-- The task is there and works. -/
def isRunning (s : State) : Bool :=
  match s.task with
  | .accepting | .closing => true
  | .ended _ | .aborted => false

/-- The word is dropped if it was not sent. -/
def dropWord (s : State) : State :=
  match s.word with
  | .held => { s with word := .dropped }
  | .sent | .dropped => s

/-- The caller returns. -/
def giveBack (s : State) (result : Result) : State :=
  { s.dropWord with caller := .returned result }

/-- The caller sees the signal and tells the task, if that is still there. -/
def hear (s : State) : State :=
  match s.caller with
  | .waiting =>
    if s.triggered then
      if s.isRunning then
        { s with caller := .draining, word := .sent, words := s.words + 1 }
      else { s.dropWord with caller := .draining }
    else s
  | .draining | .returned _ | .gone => s

/-- The caller sees the end of the task. -/
def join (s : State) : State :=
  match s.caller, s.task with
  | .waiting, .ended failure => { s with joins := s.joins + 1 }.giveBack (endedEarly failure)
  | .draining, .ended failure => { s with joins := s.joins + 1 }.giveBack (endedDrained failure)
  | _, _ => s

/-- The grace window is over. This may be seen before the end of a task that did
end just now. -/
def elapse (grace : Duration) (s : State) : State :=
  match s.caller with
  | .draining => { s with task := s.task.abort }.giveBack (.failed (.shutdownTimeout grace))
  | .waiting | .returned _ | .gone => s

/-- The task sees that it has to stop. -/
def observe (s : State) : State :=
  match s.task, s.word with
  | .accepting, .sent | .accepting, .dropped => { s with task := .closing }
  | _, _ => s

/-- One step. -/
def step (grace : Duration) (s : State) : Event → State
  | .trigger => { s with triggered := true }
  | .arrive request =>
    match s.task with
    | .accepting =>
      { s with accepted := s.accepted ++ [request], inFlight := s.inFlight ++ [request] }
    | .closing | .ended _ | .aborted => s
  | .finish request =>
    if request ∈ s.inFlight then
      { s with inFlight := s.inFlight.erase request, answered := s.answered ++ [request] }
    else s
  | .fail failure => if s.isRunning then { s with task := .ended failure } else s
  | .observe => s.observe
  | .close => if s.task = .closing ∧ s.inFlight = [] then { s with task := .ended none } else s
  | .hear => s.hear
  | .join => s.join
  | .elapse => s.elapse grace
  | .drop => if s.caller.isBusy then { s.dropWord with caller := .gone } else s

/-- A run. -/
def run (grace : Duration) (s : State) (events : List Event) : State :=
  events.foldl (step grace) s

/-- What both parties do by themselves as soon as they can. -/
def reactions : List Event := [.hear, .observe, .close, .join]

/-- Both parties do what they can. -/
def settle (grace : Duration) (s : State) : State := s.run grace reactions

end State

end AgentHost.Serving
