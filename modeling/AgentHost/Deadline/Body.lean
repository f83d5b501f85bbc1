/-!
# Reading a body in time

A `Body` delivers its frames one after the other; each frame comes some time
after it is asked for. After the last frame the body ends, fails or stalls.

`Body.read` reads a body to its end. The limit on reading starts anew for every
frame, and for the end: it bounds a silence, not the whole read. Time is counted
in milliseconds. A frame that comes exactly at the limit comes too late.
-/

namespace AgentHost.Deadline

/-- A part of a body, and how long it takes to come. -/
structure Frame where
  wait : Nat
  text : String
  deriving DecidableEq, Repr

/-- What follows the last frame. -/
inductive Ending where
  /-- The body is over after a while. -/
  | complete (wait : Nat)
  /-- The body breaks off after a while. -/
  | broken (wait : Nat)
  /-- Nothing ever comes. -/
  | stalled
  deriving DecidableEq, Repr

/-- What a client sends. -/
structure Body where
  frames : List Frame
  ending : Ending
  deriving DecidableEq, Repr

/-- Why a body could not be read. -/
inductive ReadError where
  | silent
  | broken
  deriving DecidableEq, Repr

/-- The error in words. -/
def ReadError.message : ReadError → String
  | .silent => "data was not received within the designated timeout"
  | .broken => "client stream failed"

/-- What a reader sees. -/
inductive Event where
  | frame (text : String)
  | failure (cause : ReadError)
  deriving DecidableEq, Repr

/-- The course of a read: what was seen and when, how long it took, and what came
of it. All times count from the start of the read. -/
structure Reading where
  events : List (Nat × Event)
  time : Nat
  result : Except ReadError String

namespace Reading

/-- A read that is over. -/
def finished (time : Nat) : Reading := ⟨[], time, .ok ""⟩

/-- A read that fails. -/
def failed (time : Nat) (cause : ReadError) : Reading :=
  ⟨[(time, .failure cause)], time, .error cause⟩

/-- The read with a frame in front. -/
def afterFrame (time : Nat) (text : String) (r : Reading) : Reading :=
  ⟨(time, .frame text) :: r.events, r.time, r.result.map (text ++ ·)⟩

end Reading

namespace Body

/-- A body that has been read. -/
def spent : Body := ⟨[], .complete 0⟩

/-- Waits for the end. -/
def readEnd (limit now : Nat) : Ending → Reading
  | .complete wait =>
    if wait < limit then .finished (now + wait) else .failed (now + limit) .silent
  | .broken wait =>
    if wait < limit then .failed (now + wait) .broken else .failed (now + limit) .silent
  | .stalled => .failed (now + limit) .silent

/-- Reads the frames and the end, from the time `now` on. -/
def readFrom (limit now : Nat) (ending : Ending) : List Frame → Reading
  | [] => readEnd limit now ending
  | f :: rest =>
    if f.wait < limit then
      .afterFrame (now + f.wait) f.text (readFrom limit (now + f.wait) ending rest)
    else .failed (now + limit) .silent

/-- Reads a body to its end. -/
def read (limit : Nat) (b : Body) : Reading := readFrom limit 0 b.ending b.frames

end Body

end AgentHost.Deadline
