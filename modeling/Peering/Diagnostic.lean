import Peering.Session.Basic
import Peering.Text.Quoted

/-!
# Diagnostic forms

A value in a diagnostic is written with the name of its kind and its parts: a record as `Name { field: value }`, a
choice with one part as `Name(value)`, a list in brackets. Texts are quoted; addresses and flags stand as they are.
-/

namespace Peering.Diagnostic

open Text

/-! ## Shapes -/

/-- A record with named fields. -/
def record (name : String) (fields : List (String × String)) : String :=
  name ++ " \x7b " ++ ", ".intercalate (fields.map fun f => f.1 ++ ": " ++ f.2) ++ " \x7d"

/-- A record that says it has more fields. -/
def openRecord (name : String) (fields : List (String × String)) : String :=
  name ++ " \x7b " ++ ", ".intercalate (fields.map fun f => f.1 ++ ": " ++ f.2) ++ ", .. \x7d"

/-- A name with one part. -/
def tagged (name part : String) : String := name ++ "(" ++ part ++ ")"

/-- A part that may be missing. -/
def optional : Option String → String
  | some s => tagged "Some" s
  | none => "None"

/-- A list. -/
def list (items : List String) : String := "[" ++ ", ".intercalate items ++ "]"

/-! ## Values -/

/-- A port that may be missing. -/
def port (p : Option Port) : String := optional (p.map fun p => String.ofList p.chars)

/-- A set of flags. -/
def flags (s : FlagSet) : String :=
  tagged "ResolveFlags" (if s.names.isEmpty then "NONE" else " | ".intercalate s.names)

/-- An address family selector. -/
def protocol : Protocol → String
  | .unspecified => "Unspecified"
  | .v4 => "V4"
  | .v6 => "V6"

/-- A query. -/
def query (q : Query) : String :=
  record "Query"
    [("host", quoted q.host), ("service", quoted q.service), ("protocol", protocol q.protocol),
      ("flags", flags q.flags)]

/-- A literal endpoint. -/
def literal (address : String) (p : Option Port) : String :=
  record "IpEndpoint" [("address", address), ("port", port p)]

/-- An endpoint. -/
def endpoint : Endpoint → String
  | .ipv4 a p => tagged "Ipv4" (literal (toString a) p)
  | .ipv6 a p => tagged "Ipv6" (literal (toString a) p)
  | .host h =>
    tagged "Hostname"
      (record "HostnameEndpoint"
        [("hostname", quoted h.hostname), ("service", optional (h.service.map quoted))])

/-- A system error. -/
def systemError (e : SystemError) : String :=
  match e.reason with
  | some reason => record "Custom" [("kind", e.kind.name), ("error", quoted reason)]
  | none => tagged "Kind" e.kind.name

/-- A lookup error. -/
def lookupError (e : LookupError) : String :=
  match e with
  | .nameNotResolved domain cause =>
    record e.name [("domain", quoted domain), ("source", systemError cause)]
  | .serviceNotFound service => record e.name [("service", quoted service)]
  | _ => e.name

/-- An endpoint error. -/
def endpointError (e : EndpointError) : String :=
  match e with
  | .invalidService service => record e.name [("service", quoted service)]
  | .resolutionFailed cause => tagged e.name (lookupError cause)
  | .emptyHostname => e.name
  | .invalidFormat input fault => record e.name [("input", quoted input), ("reason", quoted fault.message)]

/-- An entry of results. -/
def entry (e : Entry) : String :=
  record "ResolverEntry"
    [("endpoint", toString e.endpoint), ("host_name", quoted e.hostName), ("service_name", quoted e.serviceName)]

/-- Results of a lookup. -/
def results (r : Results) : String := record "ResolverResults" [("entries", list (r.entries.map entry))]

/-- An answer. -/
def answer : Answer → String
  | .ok r => results r
  | .error e => lookupError e

/-- Options of a resolution. -/
def options (o : ResolveOptions) : String :=
  record "ResolveOptions"
    [("protocol", protocol o.protocol), ("flags", flags o.flags), ("default_service", quoted o.defaultService)]

/-- A guard. -/
def guard {α : Type} (g : Guard α) : String := record "CompletionGuard" [("pending", toString g.isPending)]

/-- A guard of a session, while it is neither completed nor dropped, with what its completion was given so far. -/
def guardOf (s : Session) (id : Nat) : Option (String × List Answer) :=
  (s.guard? id).map fun g => (guard g, s.givenByGuard id)

/-- A resolver with a table of overrides. -/
def overrides (t : OverrideTable) : String :=
  openRecord "DnsResolverWithOverrides" [("override_count", toString t.size)]

end Peering.Diagnostic
