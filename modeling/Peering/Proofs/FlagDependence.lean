import Peering.Proofs.Agreement
import Peering.Proofs.ShapedAddresses

/-!
# What flags decide

Two queries that differ in their flags only are compared. Of the seven flags two decide how addresses are shaped, and
only where IPv6 is wanted; two more decide what becomes of a query before anything is looked up.

* `Query.Keeps.withFlags`: an address that is kept under some flags is kept under others that map at least as much;
* `FlagSet.MapsAlike`, `Query.collect_withFlags`: flags under which addresses are shaped alike;
* `FlagSet.DecidesAlike`, `Query.beforeLookup_withFlags`: flags under which queries are decided alike;
* `Source.TreatsAlike`: a source that does the same for two queries, however it is asked.

`Query.flags_decide` states this for addresses of any host, for tables of overrides over any source, and for the system
and the client.
-/

namespace Peering

/-! ## Flags that make no difference -/

namespace FlagSet

/-- For queries of a protocol, the flags map the same IPv4 addresses: mapping is asked for where IPv6 is wanted only, and
how far it goes counts where it is asked for. -/
structure MapsAlike (p : Protocol) (f g : FlagSet) : Prop where
  v4Mapped : p = .v6 → f.has .v4Mapped = g.has .v4Mapped
  allMatching : p = .v6 → f.has .v4Mapped = true → f.has .allMatching = g.has .allMatching

/-- For queries of a protocol, the flags make no difference before a lookup either. -/
structure DecidesAlike (p : Protocol) (f g : FlagSet) : Prop extends MapsAlike p f g where
  numericHost : f.has .numericHost = g.has .numericHost
  numericService : f.has .numericService = g.has .numericService

variable {p : Protocol} {f g : FlagSet}

theorem MapsAlike.symm (h : MapsAlike p f g) : MapsAlike p g f where
  v4Mapped hp := (h.v4Mapped hp).symm
  allMatching hp hmap := (h.allMatching hp ((h.v4Mapped hp).trans hmap)).symm

end FlagSet

/-- The addresses of an answer; one that failed has none. -/
def Answer.addresses : Answer → List IPAddress
  | .ok r => r.endpoints.map SocketAddress.address
  | .error _ => []

namespace Query

/-- The query with other flags. -/
def withFlags (q : Query) (f : FlagSet) : Query := { q with flags := f }

variable {q : Query} {f g : FlagSet} {ips : List IPAddress} {ip : IPAddress}

@[simp] theorem withFlags_host (q : Query) (f : FlagSet) : (q.withFlags f).host = q.host := rfl

@[simp] theorem withFlags_service (q : Query) (f : FlagSet) : (q.withFlags f).service = q.service := rfl

@[simp] theorem withFlags_protocol (q : Query) (f : FlagSet) : (q.withFlags f).protocol = q.protocol := rfl

@[simp] theorem withFlags_flags (q : Query) (f : FlagSet) : (q.withFlags f).flags = f := rfl

/-! ## Shaping -/

/-- What is kept under some flags is kept under flags that map at least as much. -/
theorem Keeps.withFlags (h : (q.withFlags f).Keeps ips ip)
    (hmap : q.protocol = .v6 → f.has .v4Mapped = true → g.has .v4Mapped = true)
    (hall : q.protocol = .v6 → f.has .v4Mapped = true → f.has .allMatching = true → g.has .allMatching = true) :
    (q.withFlags g).Keeps ips ip := by
  cases h with
  | any ip hp => exact .any ip hp
  | v4 a hp => exact .v4 a hp
  | v6 a hp => exact .v6 a hp
  | mapped a hp hf hwhich => exact .mapped a hp (hmap hp hf) (hwhich.imp_left (hall hp hf))

theorem shaped_withFlags (h : f.MapsAlike q.protocol g) (ips : List IPAddress) :
    (q.withFlags f).shaped ips = (q.withFlags g).shaped ips := by
  have hkeeps (ip : IPAddress) : (q.withFlags f).Keeps ips ip ↔ (q.withFlags g).Keeps ips ip := by
    constructor
    · exact fun hf => hf.withFlags (fun hp hmap => h.v4Mapped hp ▸ hmap) fun hp hmap hall => h.allMatching hp hmap ▸ hall
    · exact fun hg => hg.withFlags (fun hp hmap => h.symm.v4Mapped hp ▸ hmap)
        fun hp hmap hall => h.symm.allMatching hp hmap ▸ hall
  rw [shaped_eq, shaped_eq]
  simp only [hkeeps]
  rfl

/-- Where the same addresses are kept, the results are the same. -/
theorem collect_of_shaped_eq (h : (q.withFlags f).shaped ips = (q.withFlags g).shaped ips) (port : Port) :
    (q.withFlags f).collect port ips = (q.withFlags g).collect port ips := by
  rw [collect, collect, h]
  rfl

/-- Flags that map alike have the same results. -/
theorem collect_withFlags (h : f.MapsAlike q.protocol g) (port : Port) (ips : List IPAddress) :
    (q.withFlags f).collect port ips = (q.withFlags g).collect port ips :=
  collect_of_shaped_eq (shaped_withFlags h ips) port

/-- More flags keep more addresses, in the same order. -/
theorem shaped_sublist (h : g.includes f = true) (q : Query) (ips : List IPAddress) :
    ((q.withFlags f).shaped ips).Sublist ((q.withFlags g).shaped ips) := by
  have hflags := FlagSet.includes_iff.1 h
  rw [shaped_eq, shaped_eq]
  refine (List.monotone_filter_right ips fun ip hip => ?_).map q.present
  rw [decide_eq_true_eq] at hip ⊢
  exact hip.withFlags (fun _ => hflags .v4Mapped) fun _ _ => hflags .allMatching

theorem addresses_collect (q : Query) (port : Port) (ips : List IPAddress) :
    Answer.addresses (q.collect port ips) = q.shaped ips := by
  by_cases h : q.shaped ips = []
  · rw [collect_of_shaped_eq_nil h, h]
    rfl
  · rw [collect_of_shaped_ne_nil h]
    exact addresses_map_entry q port (q.shaped ips)

/-! ## Before a lookup -/

theorem port_withFlags (h : f.has .numericService = g.has .numericService) (q : Query) :
    (q.withFlags f).port = (q.withFlags g).port := by
  show Service.resolve q.service f = Service.resolve q.service g
  rw [Service.resolve, Service.resolve, h]

theorem literalResults_withFlags (h : f.DecidesAlike q.protocol g) (port : Port) :
    (q.withFlags f).literalResults port = (q.withFlags g).literalResults port := by
  rw [literalResults, literalResults, withFlags_flags, withFlags_flags, h.numericHost]
  simp only [collect_withFlags h.toMapsAlike]
  rfl

/-- Flags that decide alike have the same answer before a lookup, and the same port where there is none. -/
theorem beforeLookup_withFlags (h : f.DecidesAlike q.protocol g) :
    (q.withFlags f).beforeLookup = (q.withFlags g).beforeLookup := by
  simp only [beforeLookup, port_withFlags h.numericService, literalResults_withFlags h]

/-- Flags that decide alike have the same answer out of known addresses. -/
theorem answer_withFlags (h : f.DecidesAlike q.protocol g) (ips : List IPAddress) :
    (q.withFlags f).answer ips = (q.withFlags g).answer ips := by
  simp only [answer, port_withFlags h.numericService, collect_withFlags h.toMapsAlike]

end Query

/-! ## Sources -/

section

variable {κ : Type} {s : Source κ} {q q' : Query}

/-- The source does the same for two queries, in whatever way and context it is asked: it comes to the same, leaves the
same events, and makes the same of a completion. -/
structure Source.TreatsAlike (s : Source κ) (q q' : Query) : Prop where
  await (ctx : Context) : s.await ctx q = s.await ctx q'
  block (ctx : Context) : s.block ctx q = s.block ctx q'
  submit (ctx : Context) (c : κ) : s.submit ctx q c = s.submit ctx q' c

/-- Two queries for a host in a table are treated alike if they make the same of its addresses. -/
theorem Source.Pins.treatsAlike {ips : List IPAddress} (h : s.Pins q ips) (h' : s.Pins q' ips) (hhost : q.host = q'.host)
    (hanswer : q.answer ips = q'.answer ips) : s.TreatsAlike q q' where
  await ctx := by rw [h.await, h'.await, hhost, hanswer]
  block ctx := by rw [h.block, h'.block, hhost, hanswer]
  submit ctx c := by rw [h.submit, h'.submit, hhost, hanswer]

theorem Source.AgreesOn.treatsAlike {s' : Source κ} (h : AgreesOn q s s') (h' : AgreesOn q' s s')
    (hs' : s'.TreatsAlike q q') : s.TreatsAlike q q' where
  await ctx := by rw [h.await, h'.await, hs'.await]
  block ctx := by rw [h.block, h'.block, hs'.block]
  submit ctx c := by rw [h.submit, h'.submit, hs'.submit]

/-- The same lookup for the same host is the same task, if nothing else is done with the query. -/
theorem Source.spawn_congr {start : Run Unit} {lookup : Query → Run Answer} (hlookup : lookup q = lookup q')
    (hhost : q.host = q'.host) (ctx : Context) (c : κ) :
    spawn (fun _ => start) lookup ctx q c = spawn (fun _ => start) lookup ctx q' c := by
  simp only [spawn, hlookup, hhost]

variable {a : Answer} {network : Network} {client : NameServer.Client}

/-- The system treats queries alike that are decided alike before a lookup. -/
theorem HostSystem.treatsAlike (h : q.beforeLookup = .inl a) (h' : q'.beforeLookup = .inl a) (hhost : q.host = q'.host) :
    (source network : Source κ).TreatsAlike q q' := by
  have hlookup : lookup network q = lookup network q' := by rw [lookup, lookup, h, h']
  have hawait (ctx : Context) : HostSystem.await network ctx q = HostSystem.await network ctx q' := by
    cases ctx <;> simp only [HostSystem.await, hlookup]
  exact ⟨hawait, fun _ => hlookup, Source.spawn_congr (hawait .running) hhost⟩

/-- The client treats queries alike that are decided alike before a lookup. -/
theorem NameServer.treatsAlike (h : q.beforeLookup = .inl a) (h' : q'.beforeLookup = .inl a) (hhost : q.host = q'.host) :
    (source client : Source κ).TreatsAlike q q' := by
  have hlookup : lookup client q = lookup client q' := by rw [lookup, lookup, h, h']
  refine ⟨fun _ => hlookup, fun ctx => ?_, Source.spawn_congr hlookup hhost⟩
  simp only [source, hlookup]

end

/-! ## All queries -/

variable {κ : Type} {q : Query} {f g : FlagSet}

/-- Layers that have the host treat a query alike under flags that decide alike, whatever source is below. -/
theorem Layer.treatsAlike_over {layers : List Layer} {ips : List IPAddress} (hpinned : pinned? q.host layers = some ips)
    (h : f.DecidesAlike q.protocol g) (s : Source κ) :
    (layers.foldr Layer.over s).TreatsAlike (q.withFlags f) (q.withFlags g) :=
  (pins_over (q := q.withFlags f) hpinned s).treatsAlike (pins_over (q := q.withFlags g) hpinned s) rfl
    (Query.answer_withFlags h ips)

/-- The system and the client treat a query that needs no lookup alike under flags that decide alike, under any layers. -/
theorem Resolver.treatsAlike_source {r : Resolver} (hbottom : r.bottom = .system ∨ r.bottom = .nameServer)
    (hq : NeedsNoLookup r.layers (q.withFlags f)) (h : f.DecidesAlike q.protocol g) (env : Surroundings) :
    (r.source env : Source κ).TreatsAlike (q.withFlags f) (q.withFlags g) := by
  cases hpinned : Layer.pinned? q.host r.layers with
  | some ips => exact Layer.treatsAlike_over hpinned h _
  | none =>
    have hdecided : (q.withFlags f).IsDecided := hq.resolve_left (by simp [hpinned])
    obtain ⟨a, ha⟩ := Query.exists_beforeLookup_iff.2 hdecided
    have ha' : (q.withFlags g).beforeLookup = .inl a := (Query.beforeLookup_withFlags h).symm.trans ha
    refine (agrees_source (q := q.withFlags f) hpinned env).treatsAlike (agrees_source (q := q.withFlags g) hpinned env) ?_
    obtain hsystem | hclient := hbottom
    · rw [hsystem]
      exact HostSystem.treatsAlike ha ha' rfl
    · rw [hclient]
      exact NameServer.treatsAlike ha ha' rfl

/-- Flags that include others keep the addresses of those, in order, and maybe more. The results are the same for flags
that agree on the two that are about mapping, and all flags have the same results where IPv6 is not what is wanted or
none asks for mapping. So what a table of overrides answers over any source, and what the system and the client answer
without a lookup, depends only on the flags that want a literal address, want a port number, or map addresses. -/
theorem Query.flags_decide (q : Query) (f g : FlagSet) :
    (g.includes f = true → ∀ port ips,
      (Answer.addresses ((q.withFlags f).collect port ips)).Sublist
        (Answer.addresses ((q.withFlags g).collect port ips))) ∧
    (f.has .v4Mapped = g.has .v4Mapped → f.has .allMatching = g.has .allMatching → ∀ port ips,
      (q.withFlags f).collect port ips = (q.withFlags g).collect port ips) ∧
    (q.protocol ≠ .v6 ∨ f.has .v4Mapped = false ∧ g.has .v4Mapped = false → ∀ port ips,
      (q.withFlags f).collect port ips = (q.withFlags g).collect port ips) ∧
    (f.DecidesAlike q.protocol g →
      (∀ (κ : Type) (s : Source κ) (layers : List Layer) (ips : List IPAddress), Layer.pinned? q.host layers = some ips →
        (layers.foldr Layer.over s).TreatsAlike (q.withFlags f) (q.withFlags g)) ∧
      ∀ (κ : Type) (r : Resolver) (env : Surroundings), r.bottom = .system ∨ r.bottom = .nameServer →
        Resolver.NeedsNoLookup r.layers (q.withFlags f) →
        (r.source env : Source κ).TreatsAlike (q.withFlags f) (q.withFlags g)) := by
  refine ⟨fun h port ips => ?_, fun hmap hall => ?_, fun h => ?_, fun h => ⟨?_, ?_⟩⟩
  · rw [addresses_collect, addresses_collect]
    exact shaped_sublist h q ips
  · exact collect_withFlags ⟨fun _ => hmap, fun _ _ => hall⟩
  · obtain hp | ⟨hf, hg⟩ := h
    · exact collect_withFlags ⟨fun hp' => absurd hp' hp, fun hp' => absurd hp' hp⟩
    · exact collect_withFlags ⟨fun _ => hf.trans hg.symm, fun _ hmap => by simp [hf] at hmap⟩
  · exact fun κ s layers ips hpinned => Layer.treatsAlike_over hpinned h s
  · exact fun κ r env hbottom hq => Resolver.treatsAlike_source hbottom hq h env

/-- The hub has an address of each family and is pinned to one of them. Under flags that map all addresses it has more of
them than under flags that map for want of others. Flags that are about something else make no difference: neither to its
results, nor to what the system or the client do for it. -/
theorem Query.flags_decide_hub :
    let q : Query := ⟨"hub.vpn", "1194", .v6, ∅⟩
    let few : FlagSet := .ofList [.v4Mapped]
    let more : FlagSet := .ofList [.v4Mapped, .allMatching]
    let other : FlagSet := .ofList [.canonicalName, .passive, .v4Mapped, .addressConfigured]
    let a : IPAddress := .v4 ⟨10, 8, 0, 1⟩
    let b : IPAddress := .v6 ⟨[0x2001, 0xdb8, 0, 0, 0, 0, 0, 1], rfl⟩
    let layers : List Layer := [.shared, .overrides (.ofList [("hub.vpn", [a])])]
    let env : Surroundings := ⟨fun _ => .ok [], fun _ => .ok [], .crashing⟩
    (Answer.addresses ((q.withFlags few).collect 1194 [a, b])).Sublist
      (Answer.addresses ((q.withFlags more).collect 1194 [a, b])) ∧
    (q.withFlags few).collect 1194 [a, b] = (q.withFlags other).collect 1194 [a, b] ∧
    (q.withFlags ∅).collect 1194 [a, b] = (q.withFlags (.ofList [.allMatching])).collect 1194 [a, b] ∧
    (layers.foldr Layer.over (Script.crashing.source : Source Unit)).TreatsAlike (q.withFlags few) (q.withFlags other) ∧
    ((⟨layers, .nameServer⟩ : Resolver).source env : Source Unit).TreatsAlike (q.withFlags few) (q.withFlags other) := by
  intro q few more other a b layers env
  have hdecides : few.DecidesAlike q.protocol other := ⟨⟨by decide, by decide⟩, by decide, by decide⟩
  refine ⟨?_, ?_, ?_, ?_, ?_⟩
  · exact (flags_decide q few more).1 (by decide) 1194 [a, b]
  · exact (flags_decide q few other).2.1 (by decide) (by decide) 1194 [a, b]
  · exact (flags_decide q ∅ (.ofList [.allMatching])).2.2.1 (.inr ⟨by decide, by decide⟩) 1194 [a, b]
  · exact ((flags_decide q few other).2.2.2 hdecides).1 Unit _ layers _ rfl
  · exact ((flags_decide q few other).2.2.2 hdecides).2 Unit ⟨layers, .nameServer⟩ env (.inr rfl) (.inl ⟨_, rfl⟩)

end Peering
