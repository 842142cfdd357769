import Peering.Address.LegacyIPv4
import Peering.Resolver.Source

/-!
# The system's own resolver

The system is asked for what is no literal address. It knows the old forms of IPv4 addresses by itself and asks the
network for all else. A lookup takes a thread of the runtime's, so waiting for one needs a runtime.
-/

namespace Peering.HostSystem

/-- The addresses that the system has for a host. -/
def addresses (network : Network) (host : String) : Except SystemError (List IPAddress) :=
  if host.toList.any (·.toNat == 0) then
    .error ⟨.invalidInput, some "file name contained an unexpected NUL byte"⟩
  else
    match IPv4.ofLegacy? host.toList with
    | some q => .ok [.v4 q]
    | none => network host

/-- A lookup by the system. -/
def lookup (network : Network) (q : Query) : Run Answer :=
  match q.beforeLookup with
  | .inl a => return a
  | .inr port => do
    .notice (.systemLookup q.host q.service)
    match LookupError.inContext q.host (addresses network q.host) with
    | .error e =>
      .notice (.systemFailed q.host e.code e.message)
      return .error e
    | .ok ips =>
      match q.collect port ips with
      | .error e => return .error e
      | .ok r =>
        .notice (.systemComplete q.host r.size)
        return .ok r

/-- Waits for a lookup on a thread of the runtime's. A thread that has begun its lookup ends it, even if the runtime
goes away. -/
def await (network : Network) (ctx : Context) (q : Query) : Run Answer :=
  match ctx with
  | .absent => .crash
  | .running => lookup network q
  | .staying => lookup network q
  | .dropped => lookup network q
  | .shutDown => do
    .notice (.systemTaskFailed "task was cancelled")
    return abandonedAnswer

/-- The system as a source. -/
def source {κ : Type} (network : Network) : Source κ where
  await := await network
  block _ := lookup network
  submit := Source.spawn (fun _ => return ()) (await network .running)

end Peering.HostSystem
