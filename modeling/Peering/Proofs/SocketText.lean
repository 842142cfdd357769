import Peering.Proofs.EndpointText
import Peering.Proofs.LiteralEndpoints

/-!
# Texts of socket addresses

Addresses, socket addresses and endpoints are read apart from each other, and agree on the texts that they share.

* `SocketAddress.ofChars?_eq_some_iff`: what is read as a socket address is a text of one of three forms (`SocketText`);
* `Endpoint.ofChars_eq_ok_ofAddressPort_iff`: a literal endpoint with a port has a text of one of the two forms that name
  no zone;
* `Endpoint.chars_ofSocketAddress`: a socket address without a zone is written as its endpoint is.

`Endpoint.ofString_agrees` states this for all texts, and that the endpoint of a socket address without a zone resolves
to the socket address.
-/

namespace Peering

open Text

/-! ## The grammar -/

/-- A text of a socket address. -/
inductive SocketText : List Char → SocketAddress → Prop
  /-- An IPv4 address and a port. -/
  | v4 {s d : List Char} {q : IPv4} {p : Port} (hq : IPv4.ofChars? s = some q) (hd : PortText d p) :
    SocketText (s ++ ':' :: d) (.v4 q p)
  /-- An IPv6 address in brackets, and a port. -/
  | v6 {s d : List Char} {a : IPv6} {p : Port} (ha : IPv6.ofChars? s = some a) (hd : PortText d p) :
    SocketText ('[' :: s ++ ']' :: ':' :: d) (.v6 a 0 p)
  /-- An IPv6 address with the number of its zone in brackets, and a port. -/
  | zoned {s z d : List Char} {a : IPv6} {n : Nat} {p : Port} (ha : IPv6.ofChars? s = some a)
    (hz : Decimal.readUpTo SocketAddress.maxZone z = some n) (hd : PortText d p) :
    SocketText ('[' :: (s ++ '%' :: z) ++ ']' :: ':' :: d) (.v6 a (.ofNat n) p)

namespace SocketAddress

/-- The zone; zero stands for none. -/
def zone : SocketAddress → UInt32
  | v4 .. => 0
  | v6 _ zone _ => zone

/-- A socket address without a zone is that of its address and its port. -/
theorem ofAddressPort_of_zone {a : SocketAddress} (h : a.zone = 0) : ofAddressPort a.address a.port = a := by
  cases a with
  | v4 q p => rfl
  | v6 a zone p => rw [show zone = 0 from h]; rfl

@[simp] theorem zone_ofAddressPort (a : IPAddress) (p : Port) : (ofAddressPort a p).zone = 0 := by cases a <;> rfl

/-! ## Reading the forms -/

section

variable {s z d : List Char} {a : IPv6} {n : Nat}

theorem percent_not_mem (ha : IPv6.ofChars? s = some a) : '%' ∉ s :=
  IPv6.not_mem_of_ofChars? ha (by decide) (by decide)

theorem zonedIPv6?_plain (ha : IPv6.ofChars? s = some a) : zonedIPv6? s = some (a, 0) := by
  rw [zonedIPv6?, splitFirst_eq_none_iff.2 (percent_not_mem ha)]
  simp [ha]

theorem zonedIPv6?_zoned (ha : IPv6.ofChars? s = some a) (hz : Decimal.readUpTo maxZone z = some n) :
    zonedIPv6? (s ++ '%' :: z) = some (a, .ofNat n) := by
  have hsplit : splitFirst '%' (s ++ '%' :: z) = some (s, z) := splitFirst_eq_some_iff.2 ⟨rfl, percent_not_mem ha⟩
  simp [zonedIPv6?, hsplit, ha, hz]

/-- What stands in brackets is an address, maybe with the number of a zone. -/
theorem zonedIPv6?_eq_some {inside : List Char} {zone : UInt32} (h : zonedIPv6? inside = some (a, zone)) :
    IPv6.ofChars? inside = some a ∧ zone = 0 ∨
      ∃ s z n, inside = s ++ '%' :: z ∧ IPv6.ofChars? s = some a ∧ Decimal.readUpTo maxZone z = some n ∧
        zone = .ofNat n := by
  unfold zonedIPv6? at h
  split at h
  · obtain ⟨a, ha, h⟩ := Option.map_eq_some_iff.1 h
    cases h
    exact .inl ⟨ha, rfl⟩
  · rename_i s z hsplit
    obtain ⟨rfl, -⟩ := splitFirst_eq_some_iff.1 hsplit
    obtain ⟨ha, n, hn, rfl⟩ : IPv6.ofChars? s = some a ∧ ∃ n, Decimal.readUpTo maxZone z = some n ∧ .ofNat n = zone := by
      simpa [Option.bind_eq_some_iff] using h
    exact .inr ⟨s, z, n, rfl, ha, hn, rfl⟩

/-- A bracketed address and a port are read apart at the first closing bracket. -/
theorem ofChars?_bracketed {inside : List Char} {zone : UInt32} {p : Port} (hbracket : ']' ∉ inside)
    (hinside : zonedIPv6? inside = some (a, zone)) (hd : PortText d p) :
    ofChars? ('[' :: inside ++ ']' :: ':' :: d) = some (.v6 a zone p) := by
  have hsplit : splitFirst ']' (inside ++ ']' :: ':' :: d) = some (inside, ':' :: d) :=
    splitFirst_eq_some_iff.2 ⟨rfl, hbracket⟩
  rw [List.cons_append, ofChars?, hsplit]
  simp [hinside, portText_iff.1 hd]

end

/-- What each form stands for is read. -/
theorem ofChars?_of_socketText {s : List Char} {a : SocketAddress} (h : SocketText s a) : ofChars? s = some a := by
  cases h with
  | @v4 s d q p hq hd =>
    have hsplit : splitFirst ':' (s ++ ':' :: d) = some (s, d) :=
      splitFirst_eq_some_iff.2 ⟨rfl, Endpoint.colon_not_mem hq⟩
    unfold ofChars?
    split
    · rename_i r h
      -- An IPv4 text begins with no bracket, and there is one: the empty text is none.
      cases s with
      | nil => simp at h
      | cons c s => exact absurd (congrArg List.head? h) (by simpa using Endpoint.head?_ne_bracket_ipv4 hq)
    · rw [hsplit]
      simp [hq, portText_iff.1 hd]
  | v6 ha hd => exact ofChars?_bracketed (Endpoint.bracket_not_mem ha) (zonedIPv6?_plain ha) hd
  | @zoned s z d a n p ha hz hd =>
    have hnumeral : Decimal.IsNumeral z := (Decimal.readUpTo_eq_some_iff.1 hz).1
    have hz' : ']' ∉ z := fun h => by simpa using hnumeral.2 _ h
    refine ofChars?_bracketed ?_ (zonedIPv6?_zoned ha hz) hd
    simpa [Endpoint.bracket_not_mem ha] using hz'

/-- Nothing else is read. -/
theorem socketText_of_ofChars? {s : List Char} {a : SocketAddress} (h : ofChars? s = some a) : SocketText s a := by
  unfold ofChars? at h
  split at h
  · split at h
    · rename_i inside d hsplit
      obtain ⟨rfl, -⟩ := splitFirst_eq_some_iff.1 hsplit
      obtain ⟨b, zone, hinside, p, hp, rfl⟩ : ∃ b zone, zonedIPv6? inside = some (b, zone) ∧
          ∃ p, Port.ofChars? d = some p ∧ .v6 b zone p = a := by
        simpa [Option.bind_eq_some_iff] using h
      obtain ⟨ha, rfl⟩ | ⟨s, z, n, rfl, ha, hz, rfl⟩ := zonedIPv6?_eq_some hinside
      · exact .v6 ha (portText_iff.2 hp)
      · exact .zoned ha hz (portText_iff.2 hp)
    · cases h
  · split at h
    · rename_i s d hsplit
      obtain ⟨rfl, -⟩ := splitFirst_eq_some_iff.1 hsplit
      obtain ⟨q, hq, p, hp, rfl⟩ : ∃ q, IPv4.ofChars? s = some q ∧ ∃ p, Port.ofChars? d = some p ∧ .v4 q p = a := by
        simpa [Option.bind_eq_some_iff] using h
      exact .v4 hq (portText_iff.2 hp)
    · cases h

/-- Reading accepts exactly the texts of the three forms. -/
theorem ofChars?_eq_some_iff {s : List Char} {a : SocketAddress} : ofChars? s = some a ↔ SocketText s a :=
  ⟨socketText_of_ofChars?, ofChars?_of_socketText⟩

end SocketAddress

/-- A text without a percent sign names no zone. -/
theorem SocketText.eq_ofAddressPort {s : List Char} {a : SocketAddress} (h : SocketText s a) (hs : '%' ∉ s) :
    a = .ofAddressPort a.address a.port := by
  cases h with
  | v4 hq hd => rfl
  | v6 ha hd => rfl
  | zoned ha hz hd => simp at hs

namespace Endpoint

/-! ## Texts that endpoints share -/

/-- The text of an address is that of its endpoint. -/
theorem ofChars_of_address {s : List Char} {ip : IPAddress} (h : IPAddress.ofChars? s = some ip) :
    ofChars s = .ok (ofAddress ip) := by
  unfold IPAddress.ofChars? at h
  split at h
  · rename_i q hq
    cases h
    exact ofChars_of_denotes (.ipv4 hq)
  · obtain ⟨a, ha, rfl⟩ := Option.map_eq_some_iff.1 h
    exact ofChars_of_denotes (.ipv6 ha)

/-- The texts of literal endpoints with a port are those of socket addresses that have no percent sign. -/
theorem ofChars_eq_ok_ofAddressPort_iff {s : List Char} {address : IPAddress} {p : Port} :
    ofChars s = .ok (ofAddressPort (some p) address) ↔ SocketText s (.ofAddressPort address p) ∧ '%' ∉ s := by
  constructor
  · intro h
    obtain ⟨f, hf⟩ := denotes_of_ofChars h
    cases address with
    | v4 q =>
      cases hf with
      | ipv4Port hq hd =>
        have hpercent := IPv4.not_mem_of_ofChars? (c := '%') hq (by decide) (by decide)
        exact ⟨.v4 hq hd, by simp [hpercent, hd.not_mem (c := '%') rfl]⟩
    | v6 a =>
      cases hf with
      | bracketedPort ha hd =>
        exact ⟨.v6 ha hd, by simp [SocketAddress.percent_not_mem ha, hd.not_mem (c := '%') rfl]⟩
  · rintro ⟨h, hs⟩
    cases address with
    | v4 q =>
      cases h with
      | v4 hq hd => exact ofChars_of_denotes (.ipv4Port hq hd)
    | v6 a =>
      generalize hzone : SocketAddress.ofAddressPort (.v6 a) p = b at h
      cases h with
      | v4 hq hd => cases hzone
      | v6 ha hd =>
        cases hzone
        exact ofChars_of_denotes (.bracketedPort ha hd)
      | zoned ha hz hd => simp at hs

/-- A socket address without a zone is written as its endpoint is. -/
theorem chars_ofSocketAddress {a : SocketAddress} (h : a.zone = 0) : (ofSocketAddress a).chars = a.chars := by
  cases a with
  | v4 q p => rfl
  | v6 a zone p =>
    rw [show zone = 0 from h]
    simp [ofSocketAddress, ofAddressPort, chars, SocketAddress.chars, SocketAddress.zoneChars, SocketAddress.address,
      SocketAddress.port]

/-- The texts of addresses are those of their endpoints, and the texts of socket addresses that have no percent sign are
those of literal endpoints with a port. The endpoint of a socket address without a zone is written like the address, and
resolves to the address whatever the source, the context and the options are. -/
theorem ofString_agrees :
    (∀ t ip, IPAddress.ofString? t = some ip → ofString t = .ok (ofAddress ip)) ∧
    (∀ t, (∃ e, ofString t = .ok e ∧ ∃ address p, e = ofAddressPort (some p) address) ↔
      (∃ a, SocketAddress.ofString? t = some a) ∧ '%' ∉ t.toList) ∧
    (∀ t a, SocketAddress.ofString? t = some a → '%' ∉ t.toList → ofString t = .ok (ofSocketAddress a)) ∧
    (∀ a : SocketAddress, a.zone = 0 → toString (ofSocketAddress a) = toString a ∧
      ∀ {κ : Type} (s : Source κ) (ctx : Context) (o : ResolveOptions),
        (ofSocketAddress a).resolve s ctx o = pure (.ok a)) := by
  have hsocket (t : String) (a : SocketAddress) (ha : SocketAddress.ofString? t = some a) (ht : '%' ∉ t.toList) :
      ofString t = .ok (ofSocketAddress a) := by
    have htext := SocketAddress.socketText_of_ofChars? ha
    have hzone := htext.eq_ofAddressPort ht
    rw [hzone] at htext
    exact ofChars_eq_ok_ofAddressPort_iff.2 ⟨htext, ht⟩
  refine ⟨fun t ip h => ofChars_of_address h, fun t => ?_, hsocket, fun a ha => ⟨?_, fun s ctx o => ?_⟩⟩
  · constructor
    · rintro ⟨_, ht, address, p, rfl⟩
      obtain ⟨htext, hpercent⟩ := ofChars_eq_ok_ofAddressPort_iff.1 ht
      exact ⟨⟨_, SocketAddress.ofChars?_of_socketText htext⟩, hpercent⟩
    · rintro ⟨⟨a, ha⟩, hpercent⟩
      exact ⟨_, hsocket t a ha hpercent, a.address, a.port, rfl⟩
  · exact congrArg String.ofList (chars_ofSocketAddress ha)
  · rw [ofSocketAddress, resolve_ofAddressPort, literalSocket, SocketAddress.ofAddressPort_of_zone ha]

/-- A port with leading zeros is read alike; an address in a zone is read as a socket address only. -/
theorem ofString_agrees_zone :
    ofString "[fe80::1]:0443" = .ok (ofSocketAddress (.v6 ⟨[0xfe80, 0, 0, 0, 0, 0, 0, 1], rfl⟩ 0 443)) ∧
      SocketAddress.ofString? "[fe80::1%2]:443" = some (.v6 ⟨[0xfe80, 0, 0, 0, 0, 0, 0, 1], rfl⟩ 2 443) ∧
      ¬ ∃ e, ofString "[fe80::1%2]:443" = .ok e ∧ ∃ address p, e = ofAddressPort (some p) address := by
  refine ⟨ofString_agrees.2.2.1 _ _ (by decide) (by decide), by decide, fun h => ?_⟩
  exact ((ofString_agrees.2.1 _).1 h).2 (by decide)

end Endpoint

end Peering
