import Peering.Address.Basic
import Peering.Endpoint.Error

/-!
# Endpoints

An endpoint names a peer by a literal address, maybe with a port, or by a hostname, maybe with a service. What a
hostname and a service may be is part of `HostEndpoint`: neither is empty, and neither holds a character that separates
the parts of the text form. `HostEndpoint.make` builds one out of any two texts or says what is wrong with them.
-/

namespace Peering

/-- The characters that a hostname may not hold, for they separate the parts of an endpoint's text. -/
def isHostSeparator (c : Char) : Bool := c == ':' || c == '[' || c == ']'

/-- A peer named by a hostname, maybe with a service of its own. -/
structure HostEndpoint where
  hostname : String
  service : Option String
  hostname_ne_empty : hostname ≠ ""
  hostname_plain : hostname.toList.any isHostSeparator = false
  service_ne_empty : service ≠ some ""
  service_plain : ∀ s ∈ service, ':' ∉ s.toList
deriving DecidableEq

/-- A hostname endpoint of a hostname and a service; an empty service is no service. -/
def HostEndpoint.make (hostname : String) (service : Option String) : Except EndpointError HostEndpoint :=
  if hostname_ne_empty : hostname = "" then .error .emptyHostname
  else if hostname_plain : hostname.toList.any isHostSeparator = true then
    .error (.invalidFormat hostname .separatorInHostname)
  else
    match service with
    | none => .ok ⟨hostname, none, hostname_ne_empty, by simpa using hostname_plain, by simp, by simp⟩
    | some s =>
      if service_plain : ':' ∈ s.toList then .error (.invalidFormat s .separatorInService)
      else if service_ne_empty : s = "" then
        .ok ⟨hostname, none, hostname_ne_empty, by simpa using hostname_plain, by simp, by simp⟩
      else
        .ok ⟨hostname, some s, hostname_ne_empty, by simpa using hostname_plain, by simpa using service_ne_empty,
          by simpa using service_plain⟩

/-- A way of naming a peer. -/
inductive Endpoint where
  | ipv4 (address : IPv4) (port : Option Port)
  | ipv6 (address : IPv6) (port : Option Port)
  | host (endpoint : HostEndpoint)
deriving DecidableEq

namespace Endpoint

/-- Whether the endpoint names its address itself. -/
def isLiteral : Endpoint → Bool
  | ipv4 .. => true
  | ipv6 .. => true
  | host _ => false

/-- The endpoint of an address without a port. -/
def ofAddress : IPAddress → Endpoint
  | .v4 a => ipv4 a none
  | .v6 a => ipv6 a none

/-- The endpoint of an address and maybe a port. -/
def ofAddressPort (port : Option Port) : IPAddress → Endpoint
  | .v4 a => ipv4 a port
  | .v6 a => ipv6 a port

/-- The endpoint of a socket address. -/
def ofSocketAddress (a : SocketAddress) : Endpoint := ofAddressPort (some a.port) a.address

end Endpoint

end Peering
