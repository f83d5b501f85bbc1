import AgentHost.Config
import AgentHost.IoError
/-!
# The network that a server is on

A host is an address of four numbers, or `localhost`; no other name is known. A
port below 1024 may not be bound, and neither may one that is in use; port 0
stands for any that is free.
-/

namespace AgentHost

open Text (Bytes)

/-- An address that is bound. -/
structure Endpoint where
  ip : String
  port : Nat
  deriving DecidableEq, Repr

/-- The address as it is written. -/
def Endpoint.shown (e : Endpoint) : String := e.ip ++ ":" ++ toString e.port

/-- A network: the ports that are in use, and the next one that is free. -/
structure Network where
  used : List Nat
  free : Nat
  deriving DecidableEq, Repr

namespace Network

/-- Cuts a text at its points. -/
def cut : List Char → List (List Char)
  | [] => [[]]
  | c :: rest =>
    if c = '.' then [] :: cut rest
    else match cut rest with
      | first :: more => (c :: first) :: more
      | [] => [[c]]

/-- The part of an address is a number below 256 without superfluous zeros. -/
def isNumber (part : List Char) : Bool :=
  part ≠ [] && part.length ≤ 3 && part.all Char.isDigit && (part.head? ≠ some '0' || part = ['0'])
    && part.foldl (fun n c => 10 * n + (c.toNat - 48)) 0 < 256

/-- The text is an address of four numbers. -/
def isAddress (host : List Char) : Bool :=
  let parts := cut host
  parts.length = 4 && parts.all isNumber

/-- A name that is not known. -/
def unknownHost : IoError :=
  .other "failed to lookup address information: Temporary failure in name resolution"

/-- The address that a host has. -/
def resolve (host : String) : Except IoError String :=
  if host.toList.contains '\x00' then .error .zeroByte
  else if isAddress host.toList then .ok host
  else if host = "localhost" then .ok "127.0.0.1"
  else .error unknownHost

/-- Binds the address of the settings. -/
def bind (n : Network) (s : ServerSettings) : Except IoError Endpoint :=
  match resolve s.host with
  | .error cause => .error cause
  | .ok ip =>
    let port := s.port.toNat
    if port = 0 then .ok ⟨ip, n.free⟩
    else if port < 1024 then .error .permissionDenied
    else if n.used.contains port then .error .addressInUse
    else .ok ⟨ip, port⟩

end Network

end AgentHost
