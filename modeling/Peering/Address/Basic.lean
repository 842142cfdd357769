import Peering.Address.IPv6
import Peering.Port
import Peering.Text.Split

/-!
# IP addresses and socket addresses

An `IPAddress` is of one of the two families; a `SocketAddress` adds a port, and to an IPv6 address the zone it is meant
in. A socket address is written `a.b.c.d:p` or `[v6]:p`, with `%` and the number of the zone after the address if there
is one.
-/

namespace Peering

/-- An address of either family. -/
inductive IPAddress where
  | v4 (address : IPv4)
  | v6 (address : IPv6)
deriving DecidableEq

namespace IPAddress

/-- Whether the address is an IPv4 address. -/
def isV4 : IPAddress → Bool
  | v4 _ => true
  | v6 _ => false

/-- Whether the address is an IPv6 address. -/
def isV6 : IPAddress → Bool
  | v4 _ => false
  | v6 _ => true

/-- The address that a text denotes. -/
def ofChars? (s : List Char) : Option IPAddress :=
  match IPv4.ofChars? s with
  | some q => some (v4 q)
  | none => (IPv6.ofChars? s).map v6

/-- The address that a text denotes. -/
def ofString? (s : String) : Option IPAddress := ofChars? s.toList

/-- The text of an address. -/
def chars : IPAddress → List Char
  | v4 q => q.chars
  | v6 a => a.chars

instance : ToString IPAddress := ⟨fun a => String.ofList a.chars⟩

end IPAddress

/-- An address with a port. With an IPv6 address goes the number of the zone it is meant in; zero stands for none. -/
inductive SocketAddress where
  | v4 (address : IPv4) (port : Port)
  | v6 (address : IPv6) (zone : UInt32) (port : Port)
deriving DecidableEq

namespace SocketAddress

open Text

/-- The address without its port. -/
def address : SocketAddress → IPAddress
  | v4 a _ => .v4 a
  | v6 a _ _ => .v6 a

/-- The port. -/
def port : SocketAddress → Port
  | v4 _ p => p
  | v6 _ _ p => p

/-- An address with a port and in no particular zone. -/
def ofAddressPort : IPAddress → Port → SocketAddress
  | .v4 a, p => v4 a p
  | .v6 a, p => v6 a 0 p

@[simp] theorem address_ofAddressPort (a : IPAddress) (p : Port) : (ofAddressPort a p).address = a := by
  cases a <;> rfl

@[simp] theorem port_ofAddressPort (a : IPAddress) (p : Port) : (ofAddressPort a p).port = p := by
  cases a <;> rfl

/-- The greatest number of a zone. -/
def maxZone : Nat := UInt32.size - 1

/-- What stands between the brackets: an IPv6 address, after it maybe `%` and the number of a zone. -/
def zonedIPv6? (s : List Char) : Option (IPv6 × UInt32) :=
  match splitFirst '%' s with
  | none => (IPv6.ofChars? s).map (·, 0)
  | some (address, zone) => do return (← IPv6.ofChars? address, .ofNat (← Decimal.readUpTo maxZone zone))

/-- The socket address that a text denotes. -/
def ofChars? (s : List Char) : Option SocketAddress :=
  match s with
  | '[' :: r =>
    match splitFirst ']' r with
    | some (inside, ':' :: port) => do
      let (a, zone) ← zonedIPv6? inside
      return v6 a zone (← Port.ofChars? port)
    | _ => none
  | _ =>
    match splitFirst ':' s with
    | some (address, port) => do return v4 (← IPv4.ofChars? address) (← Port.ofChars? port)
    | none => none

/-- The socket address that a text denotes. -/
def ofString? (s : String) : Option SocketAddress := ofChars? s.toList

/-- What follows an address to name its zone. -/
def zoneChars (zone : UInt32) : List Char := if zone = 0 then [] else '%' :: Decimal.digits zone.toNat

/-- The text of a socket address. -/
def chars : SocketAddress → List Char
  | v4 a p => a.chars ++ ':' :: p.chars
  | v6 a zone p => '[' :: a.chars ++ zoneChars zone ++ "]:".toList ++ p.chars

instance : ToString SocketAddress := ⟨fun a => String.ofList a.chars⟩

end SocketAddress

end Peering
