import Peering.Lookup.Protocol
import Peering.Lookup.Results
import Peering.Service

/-!
# Queries

A query asks for the addresses of a host and the port of a service. `Query.collect` shapes raw addresses into results:
it keeps those of the wanted family, in order, and turns IPv4 addresses into IPv4-mapped ones where the flags ask for
it. Nothing kept is an error, so a successful result is never empty.
-/

namespace Peering

/-- A request for the endpoints of a host. -/
structure Query where
  host : String
  service : String
  protocol : Protocol
  flags : FlagSet
deriving DecidableEq

namespace Query

/-- The port of the query's service. -/
def port (q : Query) : Except LookupError Port := Service.resolve q.service q.flags

/-- The host as a literal address, if it is one. -/
def literalHost? (q : Query) : Option IPAddress := IPAddress.ofString? q.host

/-- Whether IPv4 addresses among `ips` come as IPv4-mapped ones. -/
def mapsV4 (q : Query) (ips : List IPAddress) : Bool :=
  q.protocol == .v6 && q.flags.has .v4Mapped && (!ips.any IPAddress.isV6 || q.flags.has .allMatching)

/-- What the query makes of one address: kept, kept as a mapped one, or dropped. -/
def shape? (q : Query) (mapped : Bool) : IPAddress → Option IPAddress
  | .v4 a =>
    if mapped then some (.v6 (IPv6.ofMapped a)) else if q.protocol.accepts (.v4 a) then some (.v4 a) else none
  | .v6 a => if q.protocol.accepts (.v6 a) then some (.v6 a) else none

/-- The addresses that the query keeps, in order. -/
def shaped (q : Query) (ips : List IPAddress) : List IPAddress := ips.filterMap (q.shape? (q.mapsV4 ips))

/-- The results for the query out of raw addresses. -/
def collect (q : Query) (port : Port) (ips : List IPAddress) : Except LookupError Results :=
  match q.shaped ips with
  | [] => .error (.noAddresses q.host "No addresses match the requested protocol")
  | kept => .ok ⟨kept.map fun ip => ⟨.ofAddressPort ip port, q.host, q.service⟩⟩

/-- The answer that needs no lookup, for a host that is a literal address; `none` if a lookup is needed. -/
def literalResults (q : Query) (port : Port) : Except LookupError (Option Results) :=
  match q.literalHost? with
  | some ip => (q.collect port [ip]).map some
  | none => if q.flags.has .numericHost then .error .addressInvalid else .ok none

/-- The answer to a query whose addresses are known. -/
def answer (q : Query) (ips : List IPAddress) : Except LookupError Results := do
  q.collect (← q.port) ips

end Query

end Peering
