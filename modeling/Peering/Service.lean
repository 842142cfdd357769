import Peering.Lookup.Error
import Peering.Lookup.Flags
import Peering.Port

/-!
# Services

A service is a port number or one of a few names, compared without regard to ASCII case. A number is always a port; the
names are tried only for other texts, and not at all when a number is asked for (`Service.resolve`).
-/

namespace Peering.Service

/-- The services known by name, with their ports. -/
def wellKnown : List (String × Port) :=
  [("domain", 53), ("bootps", 67), ("bootpc", 68), ("ntp", 123), ("snmp", 161), ("https", 443), ("isakmp", 500),
    ("syslog", 514), ("openvpn", 1194), ("l2tp", 1701), ("ipsec-nat-t", 4500)]

/-- The port of a well known service. -/
def portOfName? (s : String) : Option Port :=
  (wellKnown.find? fun e => Text.sameName e.1 s).map Prod.snd

/-- A text has the port of the service whose name it is up to the case of ASCII letters; there is never a second. -/
theorem portOfName?_eq_some_iff {s : String} {p : Port} :
    portOfName? s = some p ↔ ∃ name, (name, p) ∈ wellKnown ∧ Text.sameName name s = true := by
  constructor
  · intro h
    obtain ⟨e, he, rfl⟩ := Option.map_eq_some_iff.1 h
    exact ⟨e.1, List.mem_of_find?_eq_some he, by simpa using List.find?_some he⟩
  · rintro ⟨name, hm, h⟩
    have known : ∀ e ∈ wellKnown, portOfName? e.1 = some e.2 := by decide
    rw [← known _ hm]
    simp only [portOfName?, Text.sameName, Text.sameName_iff.1 h]

/-- The port of a service under the given flags. -/
def resolve (s : String) (flags : FlagSet) : Except LookupError Port :=
  match Port.ofString? s with
  | some p => .ok p
  | none =>
    if flags.has .numericService then .error (.serviceNotFound s)
    else
      match portOfName? s with
      | some p => .ok p
      | none => .error (.serviceNotFound s)

/-- The only error carries the text. -/
theorem resolve_eq_error {s : String} {flags : FlagSet} {e : LookupError} (h : resolve s flags = .error e) :
    e = .serviceNotFound s := by
  unfold resolve at h
  split at h
  · cases h
  split at h
  · exact (Except.error.inj h).symm
  split at h
  · cases h
  · exact (Except.error.inj h).symm

end Peering.Service
