import Peering.Lookup.Query
import Peering.Proofs.AddressText

/-!
# What a query keeps of the addresses of its host

Which addresses a query keeps is said apart from how they are shaped: an address is kept for one of four reasons
(`Query.Keeps`), of which the last one, mapping, looks at all addresses together.

* `Query.shaped_eq`: shaping keeps just these addresses, in order and as often as they occur, and maps those of the
  wrong family (`Query.present`);
* `Query.collect_eq_ok_iff`: the results have one entry for each address that is kept, and there is at least one;
* `Query.accepts_of_mem_shaped`, `Query.shaped_of_accepts`: what has been shaped is of the wanted family, so shaping it
  once more changes nothing.

`Query.collect_keeps` states this for all queries, ports and addresses.
-/

namespace Peering

/-- IPv4 addresses are accepted unless IPv6 is wanted. -/
theorem Protocol.accepts_v4_iff {p : Protocol} {a : IPv4} : p.accepts (.v4 a) = true ↔ p ≠ .v6 := by
  cases p <;> simp [accepts, IPAddress.isV4, IPAddress.isV6]

namespace Query

variable {q : Query} {ips : List IPAddress} {ip : IPAddress}

/-! ## Addresses that are kept -/

/-- Why an address out of `ips` is kept. -/
inductive Keeps (q : Query) (ips : List IPAddress) : IPAddress → Prop
  /-- Any family is wanted. -/
  | any (ip : IPAddress) (hp : q.protocol = .unspecified) : Keeps q ips ip
  | v4 (a : IPv4) (hp : q.protocol = .v4) : Keeps q ips (.v4 a)
  | v6 (a : IPv6) (hp : q.protocol = .v6) : Keeps q ips (.v6 a)
  /-- IPv6 is wanted, and IPv4 addresses are to be mapped: all of them, or else those of a host without IPv6. -/
  | mapped (a : IPv4) (hp : q.protocol = .v6) (hmap : q.flags.has .v4Mapped = true)
    (hall : q.flags.has .allMatching = true ∨ ∀ b, .v6 b ∉ ips) : Keeps q ips (.v4 a)

theorem mapsV4_iff : q.mapsV4 ips = true ↔
    q.protocol = .v6 ∧ q.flags.has .v4Mapped = true ∧ (q.flags.has .allMatching = true ∨ ∀ b, .v6 b ∉ ips) := by
  have hnative : ips.any IPAddress.isV6 = false ↔ ∀ b, .v6 b ∉ ips := by
    rw [List.any_eq_false]
    constructor
    · exact fun h b hb => h _ hb rfl
    · intro h ip hip
      cases ip with
      | v4 a => nofun
      | v6 b => exact absurd hip (h b)
  rw [mapsV4, Bool.and_eq_true, Bool.and_eq_true, Bool.or_eq_true, beq_iff_eq, Bool.not_eq_true', hnative, and_assoc,
    or_comm]

/-- An address is kept as it is if its family is wanted, and an IPv4 address also if it is mapped. -/
theorem keeps_iff : q.Keeps ips ip ↔ q.protocol.accepts ip = true ∨ ip.isV4 = true ∧ q.mapsV4 ips = true := by
  rw [mapsV4_iff]
  constructor
  · rintro (⟨_, hp⟩ | ⟨_, hp⟩ | ⟨_, hp⟩ | ⟨_, hp, hmap, hall⟩)
    · exact .inl (by rw [hp]; rfl)
    · exact .inl (by rw [hp]; rfl)
    · exact .inl (by rw [hp]; rfl)
    · exact .inr ⟨rfl, hp, hmap, hall⟩
  · rintro (haccepts | ⟨hv4, hp, hmap, hall⟩)
    · cases hp : q.protocol with
      | unspecified => exact .any ip hp
      | v4 =>
        cases ip with
        | v4 a => exact .v4 a hp
        | v6 a => simp [hp, Protocol.accepts, IPAddress.isV4] at haccepts
      | v6 =>
        cases ip with
        | v4 a => exact absurd hp (Protocol.accepts_v4_iff.1 haccepts)
        | v6 a => exact .v6 a hp
    · cases ip with
      | v4 a => exact .mapped a hp hmap hall
      | v6 a => cases hv4

instance (q : Query) (ips : List IPAddress) : DecidablePred (q.Keeps ips) := fun _ =>
  decidable_of_iff _ keeps_iff.symm

/-- How an address that is kept is presented: where IPv6 is wanted, an IPv4 address as the IPv6 address that maps it, and
any other address as it is. -/
def present (q : Query) : IPAddress → IPAddress
  | .v4 a => if q.protocol = .v6 then .v6 (.ofMapped a) else .v4 a
  | .v6 a => .v6 a

/-- An IPv4 address that is mapped has the text of the address in it. -/
theorem toString_present (hp : q.protocol = .v6) (a : IPv4) :
    toString (q.present (.v4 a)) = "::ffff:" ++ toString a := by
  show String.ofList (q.present (.v4 a)).chars = "::ffff:" ++ String.ofList a.chars
  rw [present, if_pos hp, IPAddress.chars, IPv6.chars_ofMapped, String.ofList_append, String.ofList_toList]

/-! ## Shaping -/

/-- What becomes of one address. -/
theorem shape?_eq (q : Query) (ips : List IPAddress) (ip : IPAddress) :
    q.shape? (q.mapsV4 ips) ip = if q.Keeps ips ip then some (q.present ip) else none := by
  have hkeeps : q.Keeps ips ip ↔ _ := keeps_iff
  cases ip with
  | v4 a =>
    cases hmaps : q.mapsV4 ips with
    | true =>
      have hp := (mapsV4_iff.1 hmaps).1
      rw [if_pos (hkeeps.2 (.inr ⟨rfl, hmaps⟩)), present, if_pos hp]
      rfl
    | false =>
      simp only [hmaps, and_false, or_false, Bool.false_eq_true] at hkeeps
      by_cases haccepts : q.protocol.accepts (.v4 a) = true
      · have hp : q.protocol ≠ .v6 := Protocol.accepts_v4_iff.1 haccepts
        rw [if_pos (hkeeps.2 haccepts), present, if_neg hp, shape?, if_neg Bool.false_ne_true, if_pos haccepts]
      · rw [if_neg (mt hkeeps.1 haccepts), shape?, if_neg Bool.false_ne_true, if_neg haccepts]
  | v6 a =>
    simp only [IPAddress.isV4, Bool.false_eq_true, false_and, or_false] at hkeeps
    simp only [shape?, present, hkeeps]

/-- The addresses that are kept, in order and as often as they occur, each as it is presented. -/
theorem shaped_eq (q : Query) (ips : List IPAddress) : q.shaped ips = (ips.filter (q.Keeps ips)).map q.present := by
  have hshape : q.shape? (q.mapsV4 ips) = fun ip => if q.Keeps ips ip then some (q.present ip) else none :=
    funext (q.shape?_eq ips)
  rw [shaped, hshape, ← List.filterMap_eq_map, List.filterMap_filter]
  simp

/-- An address of the wanted family is kept as it is, whatever other addresses there are. -/
theorem shape?_of_accepts (h : q.protocol.accepts ip = true) (ips : List IPAddress) :
    q.shape? (q.mapsV4 ips) ip = some ip := by
  rw [shape?_eq, if_pos (keeps_iff.2 (.inl h))]
  cases ip with
  | v6 a => rfl
  | v4 a => rw [present, if_neg (Protocol.accepts_v4_iff.1 h)]

/-- An address that is kept is presented as one of the wanted family. -/
theorem accepts_present (h : q.Keeps ips ip) : q.protocol.accepts (q.present ip) = true := by
  cases h with
  | any ip hp => rw [hp]; rfl
  | v4 a hp => rw [present, if_neg (by simp [hp]), hp]; rfl
  | v6 a hp => rw [present, hp]; rfl
  | mapped a hp => rw [present, if_pos hp, hp]; rfl

/-- What has been shaped is of the wanted family. -/
theorem accepts_of_mem_shaped (h : ip ∈ q.shaped ips) : q.protocol.accepts ip = true := by
  rw [shaped_eq] at h
  obtain ⟨kept, hkept, rfl⟩ := List.mem_map.1 h
  exact accepts_present (of_decide_eq_true (List.mem_filter.1 hkept).2)

/-- Addresses of the wanted family are left as they are. -/
theorem shaped_of_accepts (h : ∀ ip ∈ ips, q.protocol.accepts ip = true) : q.shaped ips = ips := by
  rw [shaped, List.filterMap_congr fun ip hip => shape?_of_accepts (h ip hip) ips, List.filterMap_some]

/-! ## Results -/

/-- The entry of an address. -/
def entry (q : Query) (port : Port) (ip : IPAddress) : Entry := ⟨.ofAddressPort ip port, q.host, q.service⟩

/-- The error of a query that keeps no address. -/
def noneKept (q : Query) : LookupError :=
  .noAddresses q.host "No addresses match the requested protocol"

theorem collect_of_shaped_eq_nil {port : Port} (h : q.shaped ips = []) : q.collect port ips = .error q.noneKept := by
  rw [collect, h]
  rfl

theorem collect_of_shaped_ne_nil {port : Port} (h : q.shaped ips ≠ []) :
    q.collect port ips = .ok ⟨(q.shaped ips).map (q.entry port)⟩ := by
  rw [collect]
  split
  · contradiction
  · rfl

theorem collect_eq_ok_iff {port : Port} {r : Results} :
    q.collect port ips = .ok r ↔ q.shaped ips ≠ [] ∧ r = ⟨(q.shaped ips).map (q.entry port)⟩ := by
  by_cases h : q.shaped ips = []
  · rw [collect_of_shaped_eq_nil h]
    exact ⟨nofun, fun hr => absurd h hr.1⟩
  · rw [collect_of_shaped_ne_nil h, Except.ok.injEq]
    exact ⟨fun hr => ⟨h, hr.symm⟩, fun hr => hr.2.symm⟩

theorem shaped_eq_nil_iff : q.shaped ips = [] ↔ ∀ ip ∈ ips, ¬ q.Keeps ips ip := by
  simp [shaped_eq, List.filter_eq_nil_iff]

theorem addresses_map_entry (q : Query) (port : Port) (ips : List IPAddress) :
    (Results.mk (ips.map (q.entry port))).endpoints.map SocketAddress.address = ips := by
  simp [Results.endpoints, entry, Function.comp_def]

/-! ## All queries -/

/-- Out of the addresses of a host, the results have one entry for each that is kept, in order and as often as it occurs,
and to keep none is an error. So there are always entries, all of the wanted family, and their addresses come to the same
results once more. An IPv4 address that is mapped has the text of the address in it. -/
theorem collect_keeps (q : Query) (port : Port) (ips : List IPAddress) :
    ((∀ ip ∈ ips, ¬ q.Keeps ips ip) → q.collect port ips = .error q.noneKept) ∧
    ((∃ ip ∈ ips, q.Keeps ips ip) → q.collect port ips =
      .ok ⟨(ips.filter (q.Keeps ips)).map fun ip => ⟨.ofAddressPort (q.present ip) port, q.host, q.service⟩⟩) ∧
    (∀ r, q.collect port ips = .ok r →
      r.entries ≠ [] ∧
      (q.protocol = .v4 → ∀ e ∈ r.entries, e.endpoint.address.isV4 = true) ∧
      (q.protocol = .v6 → ∀ e ∈ r.entries, e.endpoint.address.isV6 = true) ∧
      q.collect port (r.endpoints.map SocketAddress.address) = .ok r) ∧
    (q.protocol = .v6 → ∀ a, toString (q.present (.v4 a)) = "::ffff:" ++ toString a) := by
  refine ⟨fun hnone => ?_, fun hsome => ?_, fun r hr => ?_, toString_present⟩
  · exact collect_of_shaped_eq_nil (shaped_eq_nil_iff.2 hnone)
  · have hne : q.shaped ips ≠ [] := by
      obtain ⟨ip, hip, hkeeps⟩ := hsome
      exact fun h => shaped_eq_nil_iff.1 h ip hip hkeeps
    rw [collect_of_shaped_ne_nil hne, shaped_eq, List.map_map]
    rfl
  · obtain ⟨hne, rfl⟩ := collect_eq_ok_iff.1 hr
    have hfamily (e : Entry) (he : e ∈ (q.shaped ips).map (q.entry port)) :
        q.protocol.accepts e.endpoint.address = true := by
      obtain ⟨ip, hip, rfl⟩ := List.mem_map.1 he
      rw [entry, SocketAddress.address_ofAddressPort]
      exact accepts_of_mem_shaped hip
    refine ⟨by simpa using hne, fun hp e he => ?_, fun hp e he => ?_, ?_⟩
    · simpa [hp, Protocol.accepts] using hfamily e he
    · simpa [hp, Protocol.accepts] using hfamily e he
    · -- What has been shaped is of the wanted family, so it is left as it is.
      have hagain : q.shaped (q.shaped ips) = q.shaped ips := shaped_of_accepts fun ip hip => accepts_of_mem_shaped hip
      rw [addresses_map_entry, collect_of_shaped_ne_nil (by rwa [hagain]), hagain]

/-- A host with an address of each family: the IPv4 address, which occurs twice, is mapped both times if all addresses
are wanted, and dropped if mapping is for hosts without IPv6. A host with that address only then has it mapped, and has
none without mapping. -/
theorem collect_keeps_relay :
    let relay (flags : FlagSet) : Query := ⟨"relay.vpn", "openvpn", .v6, flags⟩
    let a : IPv4 := ⟨192, 0, 2, 1⟩
    let b : IPv6 := ⟨[0x2001, 0xdb8, 0, 0, 0, 0, 0, 1], rfl⟩
    let mapped : IPv6 := ⟨[0, 0, 0, 0, 0, 0xffff, 0xc000, 0x0201], rfl⟩
    let entry (c : IPv6) : Entry := ⟨.v6 c 0 1194, "relay.vpn", "openvpn"⟩
    (relay (.ofList [.v4Mapped, .allMatching])).collect 1194 [.v4 a, .v6 b, .v4 a] =
      .ok ⟨[entry mapped, entry b, entry mapped]⟩ ∧
    (relay (.ofList [.v4Mapped, .allMatching])).collect 1194 [.v6 mapped, .v6 b, .v6 mapped] =
      .ok ⟨[entry mapped, entry b, entry mapped]⟩ ∧
    (relay (.ofList [.v4Mapped])).collect 1194 [.v4 a, .v6 b, .v4 a] = .ok ⟨[entry b]⟩ ∧
    (relay ∅).collect 1194 [.v4 a] = .error (relay ∅).noneKept ∧
    toString ((relay ∅).present (.v4 a)) = "::ffff:192.0.2.1" := by
  intro relay a b mapped entry
  have hall : (relay (.ofList [.v4Mapped, .allMatching])).collect 1194 [.v4 a, .v6 b, .v4 a] =
      .ok ⟨[entry mapped, entry b, entry mapped]⟩ :=
    ((collect_keeps (relay (.ofList [.v4Mapped, .allMatching])) 1194 [.v4 a, .v6 b, .v4 a]).2.1
      ⟨.v6 b, by decide, by decide⟩).trans (by decide)
  refine ⟨hall, ?_, ?_, ?_, ?_⟩
  · exact ((collect_keeps (relay (.ofList [.v4Mapped, .allMatching])) 1194 [.v4 a, .v6 b, .v4 a]).2.2.1 _ hall).2.2.2
  · exact ((collect_keeps (relay (.ofList [.v4Mapped])) 1194 [.v4 a, .v6 b, .v4 a]).2.1
      ⟨.v6 b, by decide, by decide⟩).trans (by decide)
  · exact (collect_keeps (relay ∅) 1194 [.v4 a]).1 (by decide)
  · exact ((collect_keeps (relay ∅) 1194 []).2.2.2 rfl a).trans (by decide)

end Query

end Peering
