import Peering.Endpoint.Basic

/-!
# The text form of endpoints

`Endpoint.ofString` reads and `Endpoint.chars` writes the text of an endpoint:

- `192.0.2.1` and `192.0.2.1:1194`, an IPv4 address without and with a port;
- `2001:db8::1`, `[2001:db8::1]` and `[2001:db8::1]:1194`, an IPv6 address;
- `vpn.example.com` and `vpn.example.com:openvpn`, a hostname without and with a service.

A hostname that is the text of an IPv4 address reads back as that address. If its service is no port, it does not read
back at all (`Endpoint.readsBack`).
-/

namespace Peering.Endpoint

open Text

/-! ## Writing -/

/-- The text of an endpoint. -/
def chars : Endpoint → List Char
  | ipv4 a none => a.chars
  | ipv4 a (some p) => a.chars ++ ':' :: p.chars
  | ipv6 a none => a.chars
  | ipv6 a (some p) => '[' :: a.chars ++ "]:".toList ++ p.chars
  | host h =>
    match h.service with
    | none => h.hostname.toList
    | some s => h.hostname.toList ++ ':' :: s.toList

instance : ToString Endpoint := ⟨fun e => String.ofList e.chars⟩

/-! ## Reading -/

/-- The port after a literal address. -/
def literalPort (s : List Char) : Except EndpointError Port :=
  match Port.ofChars? s with
  | some p => .ok p
  | none => .error (.invalidService (String.ofList s))

/-- What follows a closing bracket; `whole` is the text that is read. -/
def portAfterBracket (whole : List Char) : List Char → Except EndpointError (Option Port)
  | [] => .ok none
  | ':' :: p => (literalPort p).map some
  | _ :: _ => .error (.invalidFormat (String.ofList whole) .textAfterBracket)

/-- Reads what follows an opening bracket; `whole` is the text that is read. -/
def ofBracketed (whole rest : List Char) : Except EndpointError Endpoint :=
  match splitFirst ']' rest with
  | none => .error (.invalidFormat (String.ofList whole) .unclosedBracket)
  | some (inside, tail) =>
    match IPv6.ofChars? inside with
    | none => .error (.invalidFormat (String.ofList whole) .invalidIPv6)
    | some a => (portAfterBracket whole tail).map (ipv6 a)

/-- Reads a host and what follows its colon; `whole` is the text that is read. -/
def ofParts (whole name : List Char) (service : Option (List Char)) : Except EndpointError Endpoint :=
  if ':' ∈ name then .error (.invalidFormat (String.ofList whole) .unbracketedIPv6)
  else if service = some [] then .error (.invalidFormat (String.ofList whole) .emptyService)
  else
    match IPv4.ofChars? name with
    | some a =>
      match service with
      | none => .ok (ipv4 a none)
      | some s => (literalPort s).map fun p => ipv4 a (some p)
    | none => (HostEndpoint.make (String.ofList name) (service.map String.ofList)).map host

/-- Reads the text of an endpoint. -/
def ofChars (s : List Char) : Except EndpointError Endpoint :=
  match s with
  | [] => .error .emptyHostname
  | '[' :: rest => ofBracketed s rest
  | _ =>
    match IPv6.ofChars? s with
    | some a => .ok (ipv6 a none)
    | none =>
      match splitLast ':' s with
      | some (name, service) => ofParts s name (some service)
      | none => ofParts s s none

/-- Reads the text of an endpoint. -/
def ofString (s : String) : Except EndpointError Endpoint := ofChars s.toList

/-- Whether the text of an endpoint can be read, and if not, why. -/
def readsBack (e : Endpoint) : Except EndpointError Unit :=
  match e with
  | host _ => (ofChars e.chars).map fun _ => ()
  | _ => .ok ()

end Peering.Endpoint
