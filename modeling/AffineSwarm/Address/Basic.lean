/-!
# Socket addresses

An internet address with a port. An IPv6 address is eight 16-bit groups and a scope
number; an IPv4 address written inside IPv6 is not the same address as the IPv4 one.
-/

namespace AffineSwarm

structure Host4 where
  a : UInt8
  b : UInt8
  c : UInt8
  d : UInt8
  deriving DecidableEq, Repr

/-- The eight groups of an IPv6 address. -/
abbrev Host6 := Vector UInt16 8

inductive Address where
  | v4 (host : Host4) (port : UInt16)
  | v6 (host : Host6) (port : UInt16) (scope : UInt32)
  deriving DecidableEq, Repr

namespace Address

def port : Address → UInt16
  | .v4 _ port => port
  | .v6 _ port _ => port

def withPort (port : UInt16) : Address → Address
  | .v4 host _ => .v4 host port
  | .v6 host _ scope => .v6 host port scope

/-- Every interface of this host. -/
def anyHost (port : UInt16) : Address := .v4 ⟨0, 0, 0, 0⟩ port

/-- Every host of the local network. -/
def broadcast (port : UInt16) : Address := .v4 ⟨255, 255, 255, 255⟩ port

end Address

end AffineSwarm
