import AgentHost.CommandLine.Parse
/-!
# What an accepted command line asks for

A request grows by one value of an option at a time. What the values of all
options keep therefore holds of every request that a command line makes.
-/

namespace AgentHost.CommandLine

open Text (Bytes)

/-- What holds of a request still holds when an option adds its value. -/
def Request.Kept (P : Request → Prop) : Prop :=
  ∀ ⦃q q' flag value⦄, P q → q.withValue flag value = .ok q' → P q'

namespace Reading

section Kept

variable {P : Request → Prop} (hkept : Request.Kept P)

include hkept

end Kept

end Reading

end AgentHost.CommandLine
