import Peering.Resolver.Source

/-!
# A client of a name server

What is no literal address is looked up by a client, which is given from outside: all that is known of it is what it
answers. It needs no thread, so waiting for it works anywhere.
-/

namespace Peering.NameServer

/-- What a client answers for a host: the addresses, or the text of its failure. -/
abbrev Client := String → Except String (List IPAddress)

/-- A lookup by the client. -/
def lookup (client : Client) (q : Query) : Run Answer :=
  match q.beforeLookup with
  | .inl a => return a
  | .inr port => do
    .notice (.clientLookup q.host)
    match client q.host with
    | .error failure =>
      .notice (.clientFailed q.host failure)
      return .error (.nameNotResolved q.host ⟨.notFound, some failure⟩)
    | .ok ips =>
      match q.collect port ips with
      | .error e => return .error e
      | .ok r =>
        .notice (.clientComplete q.host r.size)
        return .ok r

/-- The client as a source; to block, it is set up anew each time. -/
def source {κ : Type} (client : Client) : Source κ where
  await _ := lookup client
  block _ q := do
    .notice .clientConfigured
    lookup client q
  submit := Source.spawn (fun _ => return ()) (lookup client)

end Peering.NameServer
