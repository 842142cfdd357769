import Peering.Proofs.EndpointText

/-!
# Endpoints with the same text

Two endpoints are written alike only if they are the same, or one is an IPv4 address and the other a hostname endpoint
that poses as it (`Endpoint.PosesAs`): its hostname is the text of the address, and its service the decimal text of the
port. Literal endpoints are told apart by reading them back; hostname endpoints by where the colon stands.

* `Endpoint.splitFirst_joined`, `Endpoint.joined_injective`: a name without colons and what follows its colon are told
  from the text;
* `Endpoint.chars_host`, `Endpoint.chars_ipv4`: hostname endpoints and IPv4 addresses are written so;
* `Endpoint.chars_host_ne_chars_ipv6`: no hostname endpoint is written like an IPv6 address.

`Endpoint.toString_eq_toString_iff` states this for any two endpoints.
-/

namespace Peering

open Text

/-- A hostname endpoint is made up of its hostname and its service. -/
theorem HostEndpoint.eq_of_parts {g h : HostEndpoint} (hname : g.hostname = h.hostname)
    (hservice : g.service = h.service) : g = h := by
  cases g
  cases h
  cases hname
  cases hservice
  rfl

namespace Endpoint

/-! ## Names and what follows them -/

/-- A name, and after a colon what follows it. -/
def joined (name : List Char) (tail : Option (List Char)) : List Char := name ++ (tail.map (':' :: ·)).getD []

variable {name name' : List Char} {tail tail' : Option (List Char)}

/-- The first colon stands after the name. -/
theorem splitFirst_joined (h : ':' ∉ name) (tail : Option (List Char)) :
    splitFirst ':' (joined name tail) = tail.map fun t => (name, t) := by
  cases tail with
  | none =>
    have hname : joined name none = name := List.append_nil name
    rw [hname]
    exact splitFirst_eq_none_iff.2 h
  | some t => exact splitFirst_eq_some_iff.2 ⟨rfl, h⟩

/-- A name and what follows it are told from the text. -/
theorem joined_injective (hname : ':' ∉ name) (hname' : ':' ∉ name') (h : joined name tail = joined name' tail') :
    name = name' ∧ tail = tail' := by
  have hsplit := congrArg (splitFirst ':') h
  rw [splitFirst_joined hname, splitFirst_joined hname'] at hsplit
  match tail, tail' with
  | none, none => exact ⟨List.append_cancel_right h, rfl⟩
  | none, some t => cases hsplit
  | some t, none => cases hsplit
  | some t, some t' =>
    rw [Option.map_some, Option.map_some, Option.some.injEq, Prod.mk.injEq] at hsplit
    exact ⟨hsplit.1, congrArg some hsplit.2⟩

variable {h : HostEndpoint} {q : IPv4} {port : Option Port}

theorem chars_host (h : HostEndpoint) : (host h).chars = joined h.hostname.toList (h.service.map String.toList) := by
  rw [chars]
  cases h.service with
  | none => exact (List.append_nil _).symm
  | some u => rfl

theorem chars_ipv4 (q : IPv4) (port : Option Port) : (ipv4 q port).chars = joined q.chars (port.map Port.chars) := by
  cases port with
  | none => exact (List.append_nil _).symm
  | some p => rfl

theorem colon_not_mem_chars (q : IPv4) : ':' ∉ q.chars := colon_not_mem (IPv4.ofChars?_chars q)

/-! ## Hostname endpoints -/

/-- Hostname endpoints with the same text are the same. -/
theorem chars_host_injective {g h : HostEndpoint} (heq : (host g).chars = (host h).chars) : g = h := by
  rw [chars_host, chars_host] at heq
  obtain ⟨hname, hservice⟩ := joined_injective g.colon_not_mem_hostname h.colon_not_mem_hostname heq
  apply HostEndpoint.eq_of_parts
  · exact String.toList_injective hname
  · exact Option.map_injective (fun _ _ => String.toList_injective) hservice

/-- A hostname endpoint that is spelled like an IPv4 address: its hostname is the text of the address, and its service the
decimal text of the port, or absent where there is no port. -/
inductive PosesAs : Endpoint → Endpoint → Prop
  | intro {h : HostEndpoint} {q : IPv4} {port : Option Port} (hname : h.hostname = toString q)
    (hservice : h.service = port.map fun p => toString p.toNat) : PosesAs (host h) (ipv4 q port)

/-- A hostname endpoint has the text of an IPv4 address exactly if it poses as it. -/
theorem chars_host_eq_chars_ipv4_iff : (host h).chars = (ipv4 q port).chars ↔ PosesAs (host h) (ipv4 q port) := by
  have hport : (port.map fun p => toString p.toNat) = (port.map Port.chars).map String.ofList := by
    rw [Option.map_map]
    rfl
  rw [chars_host, chars_ipv4]
  constructor
  · intro heq
    obtain ⟨hname, hservice⟩ := joined_injective h.colon_not_mem_hostname (colon_not_mem_chars q) heq
    refine .intro ?_ ?_
    · show h.hostname = String.ofList q.chars
      rw [← hname, String.ofList_toList]
    · rw [hport, ← hservice, Option.map_map]
      simp [Function.comp_def]
  · rintro ⟨hname, hservice⟩
    have htoList : h.hostname.toList = q.chars := by
      rw [hname]
      exact String.toList_ofList
    have hmap : h.service.map String.toList = port.map Port.chars := by
      rw [hservice, hport, Option.map_map]
      simp [Function.comp_def]
    rw [htoList, hmap]

/-- No hostname endpoint is written like an IPv6 address: it is never read as one. -/
theorem chars_host_ne_chars_ipv6 (h : HostEndpoint) (a : IPv6) (port : Option Port) :
    (host h).chars ≠ (ipv6 a port).chars := by
  intro heq
  have hread : ofChars (host h).chars = .ok (ipv6 a port) := heq ▸ ofChars_chars rfl
  cases hq : IPv4.ofChars? h.hostname.toList with
  | none =>
    rw [ofChars_chars (e := host h) hq] at hread
    cases hread
  | some q =>
    rw [ofChars_chars_named hq] at hread
    split at hread
    · cases hread
    · split at hread <;> cases hread

/-! ## All endpoints -/

/-- Literal endpoints with the same text are the same, for they read back. -/
theorem chars_injective_of_isLiteral {a b : Endpoint} (ha : a.isLiteral = true) (hb : b.isLiteral = true)
    (heq : a.chars = b.chars) : a = b := by
  have hnamed {e : Endpoint} (he : e.isLiteral = true) : e.namedIPv4? = none := by
    cases e with
    | host h => cases he
    | _ => rfl
  have hread := ofChars_chars (hnamed ha)
  rw [heq, ofChars_chars (hnamed hb), Except.ok.injEq] at hread
  exact hread.symm

theorem chars_eq_chars_iff {a b : Endpoint} : a.chars = b.chars ↔ a = b ∨ PosesAs a b ∨ PosesAs b a := by
  constructor
  · intro heq
    match a, b with
    | host g, host h => exact .inl (congrArg host (chars_host_injective heq))
    | host h, ipv4 q port => exact .inr (.inl (chars_host_eq_chars_ipv4_iff.1 heq))
    | ipv4 q port, host h => exact .inr (.inr (chars_host_eq_chars_ipv4_iff.1 heq.symm))
    | host h, ipv6 a port => exact absurd heq (chars_host_ne_chars_ipv6 h a port)
    | ipv6 a port, host h => exact absurd heq.symm (chars_host_ne_chars_ipv6 h a port)
    | ipv4 _ _, ipv4 _ _ | ipv4 _ _, ipv6 _ _ | ipv6 _ _, ipv4 _ _ | ipv6 _ _, ipv6 _ _ =>
      exact .inl (chars_injective_of_isLiteral rfl rfl heq)
  · rintro (rfl | hposes | hposes)
    · rfl
    · obtain ⟨hname, hservice⟩ := hposes
      exact chars_host_eq_chars_ipv4_iff.2 ⟨hname, hservice⟩
    · obtain ⟨hname, hservice⟩ := hposes
      exact (chars_host_eq_chars_ipv4_iff.2 ⟨hname, hservice⟩).symm

theorem toString_eq_iff {a b : Endpoint} : toString a = toString b ↔ a.chars = b.chars := String.ofList_inj

/-- Two endpoints have the same text exactly if they are the same, or one is an IPv4 address and the other a hostname
endpoint that poses as it. So hostname endpoints are told apart by their texts, literal endpoints are, and no hostname
endpoint has the text of an IPv6 address. -/
theorem toString_eq_toString_iff :
    (∀ a b : Endpoint, toString a = toString b ↔ a = b ∨ PosesAs a b ∨ PosesAs b a) ∧
    (∀ g h : HostEndpoint, toString (host g) = toString (host h) → g = h) ∧
    (∀ a b : Endpoint, a.isLiteral = true → b.isLiteral = true → toString a = toString b → a = b) ∧
    ∀ (h : HostEndpoint) (a : IPv6) (port : Option Port), toString (host h) ≠ toString (ipv6 a port) := by
  refine ⟨fun a b => toString_eq_iff.trans chars_eq_chars_iff, fun g h heq => ?_, fun a b ha hb heq => ?_,
    fun h a port heq => ?_⟩
  · exact chars_host_injective (toString_eq_iff.1 heq)
  · exact chars_injective_of_isLiteral ha hb (toString_eq_iff.1 heq)
  · exact chars_host_ne_chars_ipv6 h a port (toString_eq_iff.1 heq)

/-- The hub's address as a hostname, with its port as a service, is written like the address. With a leading zero in the
service it is not, and like no other hostname endpoint either. The endpoint of the hub's socket address has the same text
and is the same. -/
theorem toString_eq_toString_iff_hub :
    let address : IPv4 := ⟨10, 8, 0, 1⟩
    let hub : Endpoint := ipv4 address (some 1194)
    let named : HostEndpoint := ⟨"10.8.0.1", some "1194", by decide, by decide, by decide, by decide⟩
    let padded : HostEndpoint := ⟨"10.8.0.1", some "01194", by decide, by decide, by decide, by decide⟩
    toString (host named) = toString hub ∧ toString (host padded) ≠ toString hub ∧
      toString (host padded) ≠ toString (host named) ∧ ofSocketAddress (.v4 address 1194) = hub := by
  intro address hub named padded
  obtain ⟨hiff, hhost, hliteral, -⟩ := toString_eq_toString_iff
  refine ⟨?_, ?_, fun heq => ?_, ?_⟩
  · exact (hiff (host named) hub).2 (.inr (.inl (.intro (by decide) (by decide))))
  · exact fun heq => absurd heq (by decide)
  · exact absurd (hhost padded named heq) (by decide)
  · exact hliteral (ofSocketAddress (.v4 address 1194)) hub rfl rfl rfl

end Endpoint

end Peering
