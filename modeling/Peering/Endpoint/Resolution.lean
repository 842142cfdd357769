import Peering.Config.Basic
import Peering.Resolver.Source

/-!
# Resolving endpoints

A literal endpoint resolves by itself, with its own port or the default service as a port, and before the call returns.
A hostname endpoint puts a query to a source: its own service or the default one, and the rest from the options. A
blocking resolution takes the first entry of the answer, one in the background hands on the whole answer.
-/

namespace Peering

/-- The query that a hostname endpoint puts to a source. -/
def HostEndpoint.query (h : HostEndpoint) (o : ResolveOptions) : Query :=
  ⟨h.hostname, h.service.getD o.defaultService, o.protocol, o.flags⟩

/-- What a resolution in the background comes to. -/
abbrev Outcome := Except EndpointError Results

/-- An answer as the outcome of a resolution. -/
def Outcome.ofAnswer (a : Answer) : Outcome := a.mapError .resolutionFailed

variable {κ : Type}

namespace Endpoint

/-- The socket address of a literal address with its own port, or else the default service as a port. -/
def literalSocket (address : IPAddress) (port : Option Port) (defaultService : String) :
    Except EndpointError SocketAddress :=
  match port with
  | some p => .ok (.ofAddressPort address p)
  | none =>
    match Port.ofString? defaultService with
    | some p => .ok (.ofAddressPort address p)
    | none => .error (.invalidService defaultService)

/-- The results of a literal endpoint: one entry, named by its address and port. -/
def literalResults (a : SocketAddress) : Results :=
  .singleton a (toString a.address) (String.ofList a.port.chars)

/-- The first endpoint of an answer for a host. -/
def firstOf (host : String) (a : Answer) : Except EndpointError SocketAddress :=
  match a with
  | .error e => .error (.resolutionFailed e)
  | .ok r =>
    match r.first? with
    | some e => .ok e.endpoint
    | none => .error (.resolutionFailed (.noAddresses host "Resolver returned no addresses"))

/-- Resolves an endpoint to one socket address. -/
def resolve (s : Source κ) (ctx : Context) (o : ResolveOptions) : Endpoint → Run (Except EndpointError SocketAddress)
  | ipv4 a port => return literalSocket (.v4 a) port o.defaultService
  | ipv6 a port => return literalSocket (.v6 a) port o.defaultService
  | host h => do
    let q := h.query o
    .notice (.resolvingEndpoint h.hostname q.service)
    return firstOf h.hostname (← s.block ctx q)

/-- Resolves an endpoint in the background, for a completion. -/
def resolveAsync (s : Source κ) (ctx : Context) (o : ResolveOptions) (c : κ) : Endpoint → Run (Delivery κ Outcome)
  | ipv4 a port => return .atOnce c ((literalSocket (.v4 a) port o.defaultService).map literalResults)
  | ipv6 a port => return .atOnce c ((literalSocket (.v6 a) port o.defaultService).map literalResults)
  | host h => do
    let q := h.query o
    .notice (.startingLookup h.hostname q.service)
    return (← s.submit ctx q c).map .ofAnswer

end Endpoint

namespace PeerConfig

/-- Resolves the endpoint to listen on. -/
def resolveListenOn (s : Source κ) (ctx : Context) (c : PeerConfig) : Run (Except EndpointError SocketAddress) :=
  c.listenOn.resolve s ctx c.resolve

/-- Resolves a contact and leaves a notice if it fails. -/
def resolveContact (s : Source κ) (ctx : Context) (o : ResolveOptions) (contact : Endpoint) :
    Run (Except EndpointError SocketAddress) := do
  let r ← contact.resolve s ctx o
  match r with
  | .ok _ => return r
  | .error e =>
    .notice (.contactFailed (toString contact) e.message)
    return r

/-- Resolves all contacts, in order; one that fails does not stop the others. -/
def resolveContacts (s : Source κ) (ctx : Context) (c : PeerConfig) : Run (List (Except EndpointError SocketAddress)) :=
  c.contacts.mapM (resolveContact s ctx c.resolve)

end PeerConfig

end Peering
