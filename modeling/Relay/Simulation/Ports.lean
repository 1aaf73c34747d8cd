import Relay.Simulation.Error

/-!
# Ports

Nodes listen on ports of the machine. The allocator remembers which ports it has handed out; whether
a port can really be bound is up to the machine, whose answers at one moment are a `PortSource`.
-/

namespace Relay

/-- What a machine answers to attempts to bind a port of a host at one moment. -/
structure PortSource where
  /-- The port that is bound when any port will do. -/
  any : Option UInt16
  /-- Whether a given port can be bound. -/
  free : UInt16 → Bool

/-- The ports that have been handed out, and those that are tried when the machine has none to
offer: from the first one up to the one before the last. -/
structure PortAllocator where
  first : UInt16 := 18000
  last : UInt16 := 19000
  allocated : List UInt16 := []

namespace PortAllocator

/-- Whether a port has been handed out and not been released. -/
def isAllocated (a : PortAllocator) (port : UInt16) : Bool :=
  a.allocated.contains port

/-- The number of ports that are handed out. -/
def count (a : PortAllocator) : Nat :=
  a.allocated.length

/-- Remember a port. -/
def add (a : PortAllocator) (port : UInt16) : PortAllocator :=
  if a.isAllocated port then a else { a with allocated := port :: a.allocated }

/-- Forget a port. -/
def release (a : PortAllocator) (port : UInt16) : PortAllocator :=
  { a with allocated := a.allocated.filter (· ≠ port) }

/-- The ports of the range. -/
def range (a : PortAllocator) : List UInt16 :=
  (List.range (a.last.toNat - a.first.toNat)).map fun n => a.first + UInt16.ofNat n

/-- Bind any port: the one that the machine offers, else the first port of the range that has not
been handed out and can be bound. -/
def bindAny (a : PortAllocator) (source : PortSource) :
    Except SimulationError (UInt16 × PortAllocator) :=
  match source.any with
  | some port => .ok (port, a.add port)
  | none =>
    match a.range.find? fun port => !a.isAllocated port && source.free port with
    | some port => .ok (port, a.add port)
    | none => .error .portsExhausted

/-- Bind a port; port zero stands for any. A port that is handed out is not bound again. -/
def bind (a : PortAllocator) (source : PortSource) (port : UInt16) :
    Except SimulationError (UInt16 × PortAllocator) :=
  if port = 0 then a.bindAny source
  else if a.isAllocated port then .error (.setup (.portTaken port))
  else if source.free port then .ok (port, a.add port)
  else .error (.io "address in use")

/-- Hand out a port without keeping it bound. -/
def allocate (a : PortAllocator) (source : PortSource) : Option (UInt16 × PortAllocator) :=
  (a.bindAny source).toOption

end PortAllocator

/-- The sockets of a machine that are bound: their ports, in ascending order, and their hosts. -/
structure Machine where
  bound : List (UInt16 × String) := []

/-- What a system answers to attempts to bind ports of a host while these sockets are bound: which
hosts it knows and which ports it offers is up to the system. -/
abbrev PortAnswers := Machine → String → PortSource

namespace Machine

/-- Whether sockets on two hosts cannot share a port. A socket on all addresses stands in the way of
all others, save that the addresses of the older kind and the loopback of the newer one are apart.
-/
def overlaps (host other : String) : Bool :=
  let plain (host : String) : String := if host = "localhost" then "127.0.0.1" else host
  let covers (host other : String) : Bool :=
    host = "::" || host = "0.0.0.0" && other ≠ "::1"
  plain host = plain other || covers host other || covers other host

/-- The ports that stand in the way of a host. -/
def taken (m : Machine) (host : String) : List UInt16 :=
  (m.bound.filter fun socket => overlaps host socket.2).map (·.1)

/-- The machine with a further socket, for a port of a host. -/
def occupy (m : Machine) (port : UInt16) (host : String) : Machine :=
  { m with bound :=
      m.bound.takeWhile (·.1 < port) ++ (port, host) :: m.bound.dropWhile (·.1 < port) }

/-! One system, by which simulations can be tried out: it offers ports in the order in which a
common kernel does while no other program has any, and knows the hosts that need no name service. -/

/-- The first of so many ports, every other one from a given one on, that is not among the ascending
ports. -/
def firstApart (ports : List UInt16) (port : UInt16) : Nat → Option UInt16
  | 0 => none
  | count + 1 =>
    match ports.dropWhile (· < port) with
    | [] => some port
    | least :: rest => if least = port then firstApart rest (port + 2) count else some port

/-- The ports that the machine offers, by the least one of each class in the order in which it turns
to them: those of the lower half before those of the upper half, and the odd ones first. -/
def offered : List UInt16 := [32769, 32768, 46885, 46884]

/-- The number of ports in a class. -/
def classSize : Nat := 7058

/-- The port that the machine offers to a host. It is of the first class that has one for the host,
and no other host has it if there is one like that in the class. -/
def offer (m : Machine) (host : String) : Option UInt16 :=
  offered.findSome? fun least =>
    (firstApart (m.bound.map (·.1)) least classSize).or
      (firstApart (m.taken host) least classSize)

/-- Whether a host stands for an address: a name is known only for the machine itself. -/
def knowsHost (host : String) : Bool :=
  host = "localhost" || host = "::" || host = "::1" ||
    let parts := host.splitOn "."
    parts.length = 4 && parts.all fun part =>
      !part.isEmpty && part.toList.all Char.isDigit && part.length ≤ 3 &&
        (part.toNat?).any (· < 256)

/-- The answers of the machine for a host. -/
def source : PortAnswers := fun m host =>
  if knowsHost host then ⟨m.offer host, fun port => !(m.taken host).contains port⟩
  else ⟨none, fun _ => false⟩

end Machine

end Relay
