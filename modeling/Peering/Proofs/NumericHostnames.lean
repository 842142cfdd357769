import Peering.Proofs.Agreement
import Peering.Proofs.EndpointText
import Peering.Proofs.ShapedAddresses

/-!
# Hostnames that are addresses

A hostname endpoint whose name is the text of an IPv4 address reads back from its text as that address. The two are
resolved along different ways, the one by a query and the other by itself, and come to the same where the service is a
port, except that the query is subject to the protocol.

* `Query.beforeLookup_of_ipv4`: the query is decided before a lookup, by what it makes of the one address;
* `Query.shaped_ipv4`, `Query.shaped_ipv4_mapped`, `Query.shaped_ipv4_dropped`: the address is left, mapped or dropped;
* `Resolver.value?_block_of_beforeLookup`: the system and the client then answer so in every context;
* `Endpoint.exists_reread`: the endpoint that is read back comes to the address with the port.

`Endpoint.reread_resolves_alike` compares the two for all hostnames, flags, protocols and layers of tables that do not
have the name.
-/

namespace Peering

/-! ## The query -/

namespace Query

variable {q : Query} {a : IPv4} {p : Port}

theorem literalHost?_of_ipv4 (h : IPv4.ofChars? q.host.toList = some a) : q.literalHost? = some (.v4 a) := by
  rw [literalHost?, IPAddress.ofString?, IPAddress.ofChars?, h]

/-- A service that is a number is a port under all flags. -/
theorem port_of_number (h : Port.ofString? q.service = some p) : q.port = .ok p := by
  rw [port, Service.resolve, h]

/-- With a port for a service and an IPv4 address for a host, the query is decided by what it makes of the address. -/
theorem beforeLookup_of_ipv4 (hhost : IPv4.ofChars? q.host.toList = some a) (hport : Port.ofString? q.service = some p) :
    q.beforeLookup = .inl (q.collect p [.v4 a]) := by
  simp only [beforeLookup, port_of_number hport, literalResults, literalHost?_of_ipv4 hhost]
  cases q.collect p [.v4 a] <;> rfl

theorem shaped_ipv4 (h : q.protocol ≠ .v6) : q.shaped [.v4 a] = [.v4 a] := by
  refine shaped_of_accepts fun ip hip => ?_
  rw [List.mem_singleton.1 hip]
  exact Protocol.accepts_v4_iff.2 h

/-- An address by itself is mapped whether or not all addresses are wanted. -/
theorem shaped_ipv4_mapped (hp : q.protocol = .v6) (hmap : q.flags.has .v4Mapped = true) :
    q.shaped [.v4 a] = [.v6 (.ofMapped a)] := by
  have hkeeps : q.Keeps [.v4 a] (.v4 a) := .mapped a hp hmap (.inr fun b => by simp)
  simp [shaped_eq, hkeeps, present, hp]

theorem shaped_ipv4_dropped (hp : q.protocol = .v6) (hmap : q.flags.has .v4Mapped = false) : q.shaped [.v4 a] = [] := by
  refine shaped_eq_nil_iff.2 fun ip hip => ?_
  rw [List.mem_singleton.1 hip]
  rintro (⟨_, hp'⟩ | ⟨_, hp'⟩ | ⟨_, hp'⟩ | ⟨_, _, hmap', _⟩)
  · simp [hp] at hp'
  · simp [hp] at hp'
  · simp [hmap] at hmap'

end Query

/-! ## Resolvers -/

/-- The system and the client answer at once, in every context, a query that is decided before a lookup, if no layer has
its host. -/
theorem Resolver.value?_block_of_beforeLookup {κ : Type} {r : Resolver} {q : Query} {a : Answer}
    (hbottom : r.bottom = .system ∨ r.bottom = .nameServer) (hnone : Layer.pinned? q.host r.layers = none)
    (h : q.beforeLookup = .inl a) (env : Surroundings) (ctx : Context) :
    ((r.source env : Source κ).block ctx q).value? = some a := by
  rw [(agrees_source hnone env).block]
  obtain hsystem | hclient := hbottom
  · rw [hsystem]
    simp [Bottom.source, HostSystem.source, HostSystem.lookup, h]
  · rw [hclient]
    simp [Bottom.source, NameServer.source, NameServer.lookup, h]

namespace Endpoint

variable {h : HostEndpoint} {a : IPv4} {p : Port} {defaultService : String}

/-! ## The endpoint that is read back -/

/-- The text of the hostname endpoint reads back as an endpoint of the address, which has the service as its own port or
takes its port from the default service. -/
theorem exists_reread (hhost : IPv4.ofChars? h.hostname.toList = some a)
    (hport : Port.ofString? (h.service.getD defaultService) = some p) :
    ∃ port, ofString (toString (host h)) = .ok (ipv4 a port) ∧
      literalSocket (.v4 a) port defaultService = .ok (.v4 a p) := by
  rw [ofString_toString_eq, ofChars_chars_named hhost]
  cases hservice : h.service with
  | none =>
    rw [hservice, Option.getD_none] at hport
    exact ⟨none, rfl, by rw [literalSocket, hport]; rfl⟩
  | some u =>
    rw [hservice, Option.getD_some] at hport
    exact ⟨some p, by simp only [hport], rfl⟩

/-- The first endpoint of an answer that keeps one address. -/
theorem firstOf_collect {q : Query} {ips : List IPAddress} {ip : IPAddress} (hq : q.shaped ips = [ip]) (name : String) :
    firstOf name (q.collect p ips) = .ok (.ofAddressPort ip p) := by
  rw [Query.collect_of_shaped_ne_nil (by simp [hq]), hq]
  rfl

/-- A hostname endpoint whose name is the text of an IPv4 address and whose service is a port reads back as another
endpoint, which resolves to that address with that port. Unless IPv6 is wanted, so does the hostname endpoint itself. If
IPv6 is wanted, it resolves to the address mapped into IPv6, or fails if mapping is not asked for. -/
theorem reread_resolves_alike (hhost : IPv4.ofChars? h.hostname.toList = some a)
    (hport : Port.ofString? (h.service.getD defaultService) = some p) :
    ∃ e, ofString (toString (host h)) = .ok e ∧
      ∀ (κ : Type) (r : Resolver) (env : Surroundings) (ctx : Context) (protocol : Protocol) (flags : FlagSet),
        r.bottom = .system ∨ r.bottom = .nameServer → Layer.pinned? h.hostname r.layers = none →
        let s : Source κ := r.source env
        let o : ResolveOptions := ⟨protocol, flags, defaultService⟩
        (e.resolve s ctx o).value? = some (.ok (.v4 a p)) ∧
        (protocol ≠ .v6 → ((host h).resolve s ctx o).value? = some (.ok (.v4 a p))) ∧
        (protocol = .v6 → flags.has .v4Mapped = true →
          ((host h).resolve s ctx o).value? = some (.ok (.v6 (.ofMapped a) 0 p))) ∧
        (protocol = .v6 → flags.has .v4Mapped = false →
          ((host h).resolve s ctx o).value? =
            some (.error (.resolutionFailed
              (.noAddresses h.hostname "No addresses match the requested protocol")))) := by
  obtain ⟨port, hread, hsocket⟩ := exists_reread hhost hport
  refine ⟨ipv4 a port, hread, ?_⟩
  intro κ r env ctx protocol flags hbottom hnone s o
  have hdecided : (h.query o).beforeLookup = .inl ((h.query o).collect p [.v4 a]) :=
    Query.beforeLookup_of_ipv4 hhost hport
  have hblock : (s.block ctx (h.query o)).value? = some ((h.query o).collect p [.v4 a]) :=
    Resolver.value?_block_of_beforeLookup hbottom hnone hdecided env ctx
  have hresolve : ((host h).resolve s ctx o).value? = some (firstOf h.hostname ((h.query o).collect p [.v4 a])) := by
    simp [resolve, Run.value?_bind, hblock]
  refine ⟨?_, ?_, ?_, ?_⟩
  · rw [resolve, hsocket]
    rfl
  · intro hp
    have hshaped : (h.query o).shaped [.v4 a] = [.v4 a] := Query.shaped_ipv4 hp
    rw [hresolve, firstOf_collect hshaped]
    rfl
  · intro hp hmap
    have hshaped : (h.query o).shaped [.v4 a] = [.v6 (.ofMapped a)] := Query.shaped_ipv4_mapped hp hmap
    rw [hresolve, firstOf_collect hshaped]
    rfl
  · intro hp hmap
    have hshaped : (h.query o).shaped [.v4 a] = [] := Query.shaped_ipv4_dropped hp hmap
    rw [hresolve, Query.collect_of_shaped_eq_nil hshaped]
    rfl

/-- A hostname that is an address, with leading zeros in its service, under a handle and a table that has another host.
The client resolves it as what is read back from its text, or to the mapped address, or not at all. -/
theorem reread_resolves_alike_relay :
    let h : HostEndpoint := ⟨"192.0.2.1", some "01194", by decide, by decide, by decide, by decide⟩
    let r : Resolver := ⟨[.shared, .overrides (.ofList [("hub.vpn", [.v4 ⟨10, 8, 0, 1⟩])])], .nameServer⟩
    let s : Source Unit := r.source ⟨fun _ => .ok [], fun _ => .ok [], .crashing⟩
    let mapping : FlagSet := .ofList [.v4Mapped, .numericHost, .numericService]
    ∃ e, ofString "192.0.2.1:01194" = .ok e ∧
      (e.resolve s .absent ⟨.v4, ∅, "12000"⟩).value? = some (.ok (.v4 ⟨192, 0, 2, 1⟩ 1194)) ∧
      ((host h).resolve s .absent ⟨.v4, ∅, "12000"⟩).value? = some (.ok (.v4 ⟨192, 0, 2, 1⟩ 1194)) ∧
      ((host h).resolve s .absent ⟨.v6, mapping, "12000"⟩).value? =
        some (.ok (.v6 ⟨[0, 0, 0, 0, 0, 0xffff, 0xc000, 0x0201], rfl⟩ 0 1194)) ∧
      ((host h).resolve s .absent ⟨.v6, ∅, "12000"⟩).value? = some (.error (.resolutionFailed
        (.noAddresses "192.0.2.1" "No addresses match the requested protocol"))) := by
  intro h r s mapping
  have hhost : IPv4.ofChars? h.hostname.toList = some ⟨192, 0, 2, 1⟩ := by decide
  have hport : Port.ofString? (h.service.getD "12000") = some 1194 := by decide
  have htext : toString (host h) = "192.0.2.1:01194" := by decide
  have hmapped : IPv6.ofMapped ⟨192, 0, 2, 1⟩ = ⟨[0, 0, 0, 0, 0, 0xffff, 0xc000, 0x0201], rfl⟩ := by decide
  obtain ⟨e, hread, hresolve⟩ := reread_resolves_alike hhost hport
  rw [htext] at hread
  rw [hmapped] at hresolve
  have halike (protocol : Protocol) (flags : FlagSet) :=
    hresolve Unit r ⟨fun _ => .ok [], fun _ => .ok [], .crashing⟩ .absent protocol flags (.inr rfl) (by decide)
  exact ⟨e, hread, (halike .v4 ∅).1, (halike .v4 ∅).2.1 (by decide), (halike .v6 mapping).2.2.1 rfl (by decide),
    (halike .v6 ∅).2.2.2 rfl (by decide)⟩

end Endpoint

end Peering
