import Peering.Proofs.Deliveries

/-!
# All ways to ask agree

A query can be awaited, can block the caller, or can be put with a completion, and each layer and each bottom has its
own way of doing so. Where a runtime is there to run what is started, they all come to the same answer
(`Source.Answers`), and with them the resolutions of an endpoint.

* `Query.exists_beforeLookup_iff`: when a query is decided before anything is looked up;
* `HostSystem.answers`, `NameServer.answers`, `Script.answers`: each bottom answers alike in all ways, and the first two
  answer a query that is decided before a lookup like each other;
* `Resolver.answers_source`: so does a bottom under layers;
* `Resolver.answers_alike`: resolvers, and the resolutions of hostname endpoints.

`Resolver.block_numericHost` says what becomes of a host that has to be a literal address and is none: no lookup takes
place, but a table of overrides still answers for it.
-/

namespace Peering

/-! ## Queries that need no lookup -/

namespace Query

/-- The query is decided by itself: its service has no port, its host is a literal address, or its host has to be a
literal address. -/
def IsDecided (q : Query) : Prop :=
  (∃ e, q.port = .error e) ∨ (∃ ip, q.literalHost? = some ip) ∨ q.flags.has .numericHost = true

/-- A host that has to be a literal address and is none ends the query. -/
theorem beforeLookup_numericHost {q : Query} {port : Port} (hport : q.port = .ok port)
    (hhost : q.literalHost? = none) (hflag : q.flags.has .numericHost = true) :
    q.beforeLookup = .inl (.error .addressInvalid) := by
  simp [beforeLookup, hport, literalResults, hhost, hflag]

/-- Just the queries that are decided by themselves have an answer before anything is looked up. -/
theorem exists_beforeLookup_iff {q : Query} : (∃ a, q.beforeLookup = .inl a) ↔ q.IsDecided := by
  cases hport : q.port with
  | error e => simp [IsDecided, beforeLookup, hport]
  | ok port =>
    cases hhost : q.literalHost? with
    | some ip => cases hcollect : q.collect port [ip] <;>
        simp [IsDecided, beforeLookup, hport, literalResults, hhost, hcollect, Except.map]
    | none =>
      cases hflag : q.flags.has .numericHost <;> simp [IsDecided, beforeLookup, hport, literalResults, hhost, hflag]

end Query

/-! ## The same answer in all ways -/

/-- What is started where the call is made gets to run. -/
def Context.IsLive (ctx : Context) : Prop := ctx = .running ∨ ctx = .staying

section

variable {κ α β : Type}

/-- The delivery hands an answer to the completion and does nothing else: before the call returns, after that, or when
its task is run. What the completion is given is made of the answer by `finish`. -/
inductive Delivery.Hands (finish : Answer → α) (c : κ) (a : Answer) : Delivery κ α → Prop
  | now : Hands finish c a ⟨[(c, finish a)], [], [], []⟩
  | later : Hands finish c a ⟨[], [(c, finish a)], [], []⟩
  | task (t : Task κ) (h : t.run.value? = some [(c, a)]) : Hands finish c a ⟨[], [], [t], []⟩

theorem Delivery.Hands.map {finish : Answer → α} {c : κ} {a : Answer} {d : Delivery κ α} (h : d.Hands finish c a)
    (g : α → β) : (d.map g).Hands (fun a => g (finish a)) c a := by
  cases h with
  | now => exact .now
  | later => exact .later
  | task t h => exact .task t h

/-- In whatever way the source is asked, the query comes to the answer. -/
structure Source.Answers (s : Source κ) (ctx : Context) (q : Query) (a : Answer) : Prop where
  await : (s.await ctx q).value? = some a
  block : (s.block ctx q).value? = some a
  submit (c : κ) : ∃ d, (s.submit ctx q c).value? = some d ∧ d.Hands id c a

variable {ctx : Context} {q : Query} {a : Answer}

/-- A lookup in the background hands its answer to the completion, if it gets to run. -/
theorem Source.spawn_hands {start : Query → Run Unit} {lookup : Query → Run Answer} (hctx : ctx.IsLive)
    (hstart : (start q).value? = some ()) (hlookup : (lookup q).value? = some a) (c : κ) :
    ∃ d, (spawn start lookup ctx q c).value? = some d ∧ d.Hands id c a := by
  obtain ⟨d, hd, hfate⟩ := value?_spawn start lookup hstart ctx c
  rw [hlookup, Option.getD_some] at hfate
  refine ⟨d, hd, ?_⟩
  obtain rfl | rfl := hctx
  · cases hfate
    exact .later
  · cases hfate with
    | waiting t ht => exact .task t (t.value?_run ht)

/-! ## Bottoms -/

/-- The system answers a query that is decided before a lookup alike in all ways. -/
theorem HostSystem.answers (network : Network) (hctx : ctx.IsLive) (h : q.beforeLookup = .inl a) :
    (source network : Source κ).Answers ctx q a := by
  have hlookup : (lookup network q).value? = some a := by simp [lookup, h]
  refine ⟨?_, hlookup, Source.spawn_hands hctx rfl hlookup⟩
  obtain rfl | rfl := hctx
  · exact hlookup
  · exact hlookup

/-- The client answers a query that is decided before a lookup alike in all ways. -/
theorem NameServer.answers (client : Client) (hctx : ctx.IsLive) (h : q.beforeLookup = .inl a) :
    (source client : Source κ).Answers ctx q a := by
  have hlookup : (lookup client q).value? = some a := by simp [lookup, h]
  refine ⟨hlookup, ?_, Source.spawn_hands hctx rfl hlookup⟩
  simp [source, Run.value?_bind, hlookup]

/-- A script that can only be awaited answers alike in all ways where it does not crash. -/
theorem Script.answers {script : Script} (hctx : ctx.IsLive) (h : script q = some a) :
    (script.source : Source κ).Answers ctx q a := by
  have hlookup : (script.lookup q).value? = some a := by simp [lookup, Run.value?_bind, h]
  exact ⟨hlookup, hlookup, Source.spawn_hands hctx rfl (by rw [Run.value?_ofOption, h])⟩

/-! ## Layers -/

/-- What a table has for a host is the answer in all ways. -/
theorem Source.Pins.answers {s : Source κ} {ips : List IPAddress} (h : s.Pins q ips) (ctx : Context) :
    s.Answers ctx q (q.answer ips) where
  await := by rw [h.await]
  block := by rw [h.block]
  submit c := ⟨.atOnce c (q.answer ips), by rw [h.submit], .now⟩

theorem Source.AgreesOn.answers {s s' : Source κ} (h : AgreesOn q s s') (hs' : s'.Answers ctx q a) :
    s.Answers ctx q a where
  await := by rw [h.await, hs'.await]
  block := by rw [h.block, hs'.block]
  submit c := by
    rw [h.submit]
    exact hs'.submit c

end

/-! ## Resolvers -/

namespace Resolver

/-- No bottom has to look the query up: some layer has its host, or it is decided by itself. -/
def NeedsNoLookup (layers : List Layer) (q : Query) : Prop :=
  (∃ ips, Layer.pinned? q.host layers = some ips) ∨ q.IsDecided

/-- The resolver answers the query without asking the network or the client, without a crash, and without keeping
completions. -/
def Settles (env : Surroundings) (r : Resolver) (q : Query) : Prop :=
  match r.bottom with
  | .system => NeedsNoLookup r.layers q
  | .nameServer => NeedsNoLookup r.layers q
  | .scripted => env.script q ≠ none
  | .holding => False

variable {κ : Type} {ctx : Context} {q : Query}

/-- A resolver answers alike in all ways if some layer has the host, or if its bottom does so. -/
theorem answers_source {env : Surroundings} {r : Resolver} {a : Answer}
    (h : Layer.pinned? q.host r.layers = none → (r.bottom.source env : Source κ).Answers ctx q a) :
    (r.source env : Source κ).Answers ctx q (((Layer.pinned? q.host r.layers).map q.answer).getD a) := by
  cases hpinned : Layer.pinned? q.host r.layers with
  | some ips => exact (pins_source hpinned env).answers ctx
  | none => exact (agrees_source hpinned env).answers (h hpinned)

/-- The system and the client have the same answer to a query that needs no lookup, in all ways, whatever the network
knows and the client answers. -/
theorem exists_answers_of_needsNoLookup {layers : List Layer} (hctx : ctx.IsLive) (h : NeedsNoLookup layers q) :
    ∃ a, ∀ bottom env, bottom = .system ∨ bottom = .nameServer →
      ((⟨layers, bottom⟩ : Resolver).source env : Source κ).Answers ctx q a := by
  obtain ⟨a, ha⟩ : ∃ a, Layer.pinned? q.host layers = none → q.beforeLookup = .inl a := by
    obtain ⟨ips, hips⟩ | hdecided := h
    · exact ⟨abandonedAnswer, fun hnone => by simp [hips] at hnone⟩
    · obtain ⟨a, ha⟩ := Query.exists_beforeLookup_iff.2 hdecided
      exact ⟨a, fun _ => ha⟩
  refine ⟨((Layer.pinned? q.host layers).map q.answer).getD a, fun bottom env hbottom => ?_⟩
  refine answers_source fun hnone => ?_
  obtain rfl | rfl := hbottom
  · exact HostSystem.answers env.network hctx (ha hnone)
  · exact NameServer.answers env.client hctx (ha hnone)

/-- A resolver that settles a query answers it alike in all ways. -/
theorem exists_answers {env : Surroundings} {r : Resolver} (hctx : ctx.IsLive) (h : r.Settles env q) :
    ∃ a, (r.source env : Source κ).Answers ctx q a := by
  obtain ⟨layers, bottom⟩ := r
  cases bottom with
  | system =>
    obtain ⟨a, ha⟩ := exists_answers_of_needsNoLookup hctx h
    exact ⟨a, ha _ env (.inl rfl)⟩
  | nameServer =>
    obtain ⟨a, ha⟩ := exists_answers_of_needsNoLookup hctx h
    exact ⟨a, ha _ env (.inr rfl)⟩
  | scripted =>
    obtain ⟨a, ha⟩ := Option.ne_none_iff_exists'.1 h
    exact ⟨_, answers_source fun _ => Script.answers hctx ha⟩
  | holding => exact h.elim

end Resolver

/-! ## Resolutions -/

/-- How the endpoint of a blocking resolution follows from the outcome of one in the background: it is the first of the
outcome's endpoints, or the same error. Only where the outcome has no endpoints do they differ. -/
inductive HostEndpoint.FirstOf (h : HostEndpoint) : Outcome → Except EndpointError SocketAddress → Prop
  | first (e : Entry) (more : List Entry) : FirstOf h (.ok ⟨e :: more⟩) (.ok e.endpoint)
  | failed (cause : LookupError) : FirstOf h (.error (.resolutionFailed cause)) (.error (.resolutionFailed cause))
  | empty : FirstOf h (.ok ⟨[]⟩)
    (.error (.resolutionFailed (.noAddresses h.hostname "Resolver returned no addresses")))

namespace Endpoint

variable {κ : Type} {s : Source κ} {ctx : Context} {h : HostEndpoint} {o : ResolveOptions} {a : Answer}

theorem firstOf_spec (h : HostEndpoint) (a : Answer) : h.FirstOf (.ofAnswer a) (firstOf h.hostname a) := by
  match a with
  | .error cause => exact .failed cause
  | .ok ⟨[]⟩ => exact .empty
  | .ok ⟨e :: more⟩ => exact .first e more

/-- A blocking resolution takes the first endpoint of the answer. -/
theorem value?_resolve_host (hs : s.Answers ctx (h.query o) a) :
    ((host h).resolve s ctx o).value? = some (firstOf h.hostname a) := by
  simp [resolve, Run.value?_bind, hs.block]

/-- A resolution in the background hands on the whole answer. -/
theorem hands_resolveAsync_host (hs : s.Answers ctx (h.query o) a) (c : κ) :
    ∃ d, ((host h).resolveAsync s ctx o c).value? = some d ∧ d.Hands Outcome.ofAnswer c a := by
  obtain ⟨d, hd, hhands⟩ := hs.submit c
  exact ⟨d.map Outcome.ofAnswer, by simp [resolveAsync, Run.value?_bind, hd], hhands.map Outcome.ofAnswer⟩

end Endpoint

namespace Resolver

variable {κ : Type}

/-- Where a runtime is there to run what is started, a resolver comes to the same answer in whatever way it is asked, and
the system and the client come to the same answer as well. So a blocking resolution of a hostname endpoint gives the
first of the endpoints that one in the background delivers, or the same error, unless none are delivered. -/
theorem answers_alike (r : Resolver) (env : Surroundings) {ctx : Context} (hctx : ctx.IsLive) :
    (∀ q, r.Settles env q → ∃ a, (r.source env : Source κ).Answers ctx q a) ∧
    (∀ q, NeedsNoLookup r.layers q → ∃ a, ∀ bottom env', bottom = .system ∨ bottom = .nameServer →
      ((⟨r.layers, bottom⟩ : Resolver).source env' : Source κ).Answers ctx q a) ∧
    (∀ (h : HostEndpoint) (o : ResolveOptions), r.Settles env (h.query o) → ∃ a x,
      (∀ c : κ, ∃ d, ((Endpoint.host h).resolveAsync (r.source env) ctx o c).value? = some d ∧
        d.Hands Outcome.ofAnswer c a) ∧
      ((Endpoint.host h).resolve (r.source env : Source κ) ctx o).value? = some x ∧ h.FirstOf (.ofAnswer a) x) := by
  refine ⟨fun q hq => exists_answers hctx hq, fun q hq => exists_answers_of_needsNoLookup hctx hq, fun h o hq => ?_⟩
  obtain ⟨a, ha⟩ := exists_answers (κ := κ) hctx hq
  exact ⟨a, Endpoint.firstOf h.hostname a, Endpoint.hands_resolveAsync_host ha, Endpoint.value?_resolve_host ha,
    Endpoint.firstOf_spec h a⟩

/-- The hub is pinned under a handle. It is resolved alike in all ways, with the address that it is pinned to. -/
theorem answers_alike_hub :
    let r : Resolver := ⟨[.shared, .overrides (.ofList [("hub.vpn", [.v4 ⟨10, 8, 0, 1⟩])])], .nameServer⟩
    let env : Surroundings := ⟨fun _ => .ok [], fun _ => .ok [], .crashing⟩
    let h : HostEndpoint := ⟨"hub.vpn", some "1194", by decide, by decide, by decide, by decide⟩
    r.Settles env (h.query .default) ∧ ∃ a,
      (∀ c : Unit, ∃ d, ((Endpoint.host h).resolveAsync (r.source env) .running .default c).value? = some d ∧
        d.Hands Outcome.ofAnswer c a) ∧ h.FirstOf (.ofAnswer a) (.ok (.v4 ⟨10, 8, 0, 1⟩ 1194)) := by
  dsimp only
  refine ⟨.inl ⟨_, rfl⟩, ?_⟩
  obtain ⟨a, x, hasync, hx, hfirst⟩ := (answers_alike
    ⟨[.shared, .overrides (.ofList [("hub.vpn", [.v4 ⟨10, 8, 0, 1⟩])])], .nameServer⟩
    ⟨fun _ => .ok [], fun _ => .ok [], .crashing⟩ (κ := Unit) (.inl rfl)).2.2
    ⟨"hub.vpn", some "1194", by decide, by decide, by decide, by decide⟩ .default (.inl ⟨_, rfl⟩)
  cases hx
  exact ⟨a, hasync, hfirst⟩

/-! ## Hosts that have to be literal addresses -/

/-- A host that has to be a literal address and is none is refused by the system and the client. But a table of overrides
that has it answers for it all the same. -/
theorem block_numericHost {r : Resolver} (env : Surroundings) (ctx : Context) {q : Query} {port : Port}
    (hbottom : r.bottom = .system ∨ r.bottom = .nameServer) (hflag : q.flags.has .numericHost = true)
    (hport : q.port = .ok port) (hhost : q.literalHost? = none) :
    (((r.source env : Source κ).block ctx q).value? = some (.error .addressInvalid) ↔
      Layer.pinned? q.host r.layers = none) ∧
    ∀ ips, Layer.pinned? q.host r.layers = some ips →
      ((r.source env : Source κ).block ctx q).value? = some (q.collect port ips) := by
  have hdecided := Query.beforeLookup_numericHost hport hhost hflag
  have hpins (ips : List IPAddress) (hpinned : Layer.pinned? q.host r.layers = some ips) :
      ((r.source env : Source κ).block ctx q).value? = some (q.collect port ips) := by
    rw [(pins_source hpinned env).block, Query.answer, hport]
    rfl
  refine ⟨⟨fun hblock => ?_, fun hnone => ?_⟩, hpins⟩
  · -- What a table has is shaped into results or refused for its families, and never refused for its host.
    cases hpinned : Layer.pinned? q.host r.layers with
    | none => rfl
    | some ips =>
      rw [hpins ips hpinned, Query.collect] at hblock
      split at hblock <;> cases hblock
  · rw [(agrees_source hnone env).block]
    obtain hsystem | hclient := hbottom
    · rw [hsystem]
      simp [Bottom.source, HostSystem.source, HostSystem.lookup, hdecided]
    · rw [hclient]
      simp [Bottom.source, NameServer.source, NameServer.lookup, hdecided]

/-- The relay is refused under a table that has only the hub. -/
theorem block_numericHost_relay :
    let r : Resolver := ⟨[.overrides (.ofList [("hub.vpn", [.v4 ⟨10, 8, 0, 1⟩])])], .system⟩
    let q : Query := ⟨"relay.vpn", "1194", .unspecified, .singleton .numericHost⟩
    q.flags.has .numericHost = true ∧ q.port = .ok 1194 ∧ q.literalHost? = none ∧
      ((r.source ⟨fun _ => .ok [], fun _ => .ok [], .crashing⟩ : Source Unit).block .absent q).value? =
        some (.error .addressInvalid) := by
  dsimp only
  exact ⟨rfl, rfl, rfl, (block_numericHost _ _ (.inl rfl) rfl rfl rfl).1.2 rfl⟩

/-- The hub is not refused there, though it is no literal address: it has the address that it is pinned to. -/
theorem block_numericHost_pinned_hub :
    let r : Resolver := ⟨[.overrides (.ofList [("hub.vpn", [.v4 ⟨10, 8, 0, 1⟩])])], .system⟩
    let q : Query := ⟨"hub.vpn", "1194", .unspecified, .singleton .numericHost⟩
    q.flags.has .numericHost = true ∧ q.port = .ok 1194 ∧ q.literalHost? = none ∧
      ((r.source ⟨fun _ => .ok [], fun _ => .ok [], .crashing⟩ : Source Unit).block .absent q).value? =
        some (.ok ⟨[⟨.v4 ⟨10, 8, 0, 1⟩ 1194, "hub.vpn", "1194"⟩]⟩) :=
  ⟨rfl, rfl, rfl, rfl⟩

end Resolver

end Peering
