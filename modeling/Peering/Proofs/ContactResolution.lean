import Peering.Proofs.AskedQueries

/-!
# Resolving the contacts of a configuration

Each contact of a configuration has the result that it has alone, whatever the other contacts are and however many of
them fail. So nothing but the order of the contacts decides the order of the results, and the bottom of a resolver is
asked for the hostname contacts that no layer has, each once and in order.

* `Run.value?_mapM`: the values of computations that follow each other, none of which crashes;
* `PeerConfig.value?_resolveContacts`: the results of the contacts, each as if it were alone;
* `PeerConfig.queries_resolveContacts_over`: what the source below some layers is asked;
* `Session.source_after`: in a session, the source stays the same until the script is changed.

`PeerConfig.contacts_resolve_alone` states this for all layers over any source, and for all calls in a session.
-/

namespace Peering

/-! ## Computations that follow each other -/

/-- The values of computations that follow each other, where none of them crashes. -/
theorem Run.value?_mapM {α β : Type} {f : α → Run β} {g : α → β} (hf : ∀ a, (f a).value? = some (g a)) (l : List α) :
    (l.mapM f).value? = some (l.map g) := by
  induction l with
  | nil => rfl
  | cons a l ih => simp [List.mapM_cons, value?_bind, hf, ih]

/-! ## Layers -/

/-- The source below some layers gets the query, unless one of the layers has its host. -/
theorem Layer.queries_block_over {κ : Type} (layers : List Layer) (s : Source κ) (ctx : Context) (q : Query) :
    ((layers.foldr Layer.over s).block ctx q).queries =
      if (pinned? q.host layers).isSome then [] else (s.block ctx q).queries := by
  cases hpinned : pinned? q.host layers with
  | some ips => exact ((pins_over hpinned s).passes ctx).block
  | none =>
    rw [(agrees_over hpinned s).block]
    rfl

namespace PeerConfig

variable {κ : Type} {s : Source κ} {ctx : Context} {c : PeerConfig}

/-! ## Contacts -/

/-- A contact has the result that its endpoint has. -/
theorem value?_resolveContact (s : Source κ) (ctx : Context) (o : ResolveOptions) (e : Endpoint) :
    (resolveContact s ctx o e).value? = (e.resolve s ctx o).value? := by
  rw [resolveContact, Run.value?_bind]
  cases (e.resolve s ctx o).value? with
  | none => rfl
  | some r => cases r <;> rfl

/-- Contacts that have results have them together. -/
theorem value?_resolveContacts {alone : Endpoint → Except EndpointError SocketAddress}
    (halone : ∀ e, (e.resolve s ctx c.resolve).value? = some (alone e)) :
    (c.resolveContacts s ctx).value? = some (c.contacts.map alone) :=
  Run.value?_mapM (fun e => (value?_resolveContact s ctx c.resolve e).trans (halone e)) c.contacts

/-- The queries of the hostname contacts that no layer has, in order. -/
def passed (layers : List Layer) (c : PeerConfig) : List Query :=
  (c.contacts.filterMap (Endpoint.query? c.resolve)).filter fun q => (Layer.pinned? q.host layers).isNone

/-- The source below some layers gets the queries that the layers pass on, in order, each once. -/
theorem queries_resolveContacts_over {layers : List Layer} {b : Source κ}
    (hs : ∀ q, ((layers.foldr Layer.over b).block ctx q).value?.isSome) (c : PeerConfig) :
    (c.resolveContacts (layers.foldr Layer.over b) ctx).queries =
      (c.passed layers).flatMap fun q => (b.block ctx q).queries := by
  rw [queries_resolveContacts _ ctx c hs, passed]
  simp only [Layer.queries_block_over]
  induction c.contacts with
  | nil => rfl
  | cons e contacts ih =>
    rw [List.flatMap_cons, ih]
    cases hq : e.query? c.resolve with
    | none => simp [hq]
    | some q => cases hpinned : Layer.pinned? q.host layers <;> simp [hq, hpinned]

/-- What becomes of the contacts of a configuration under some layers over a source. -/
structure ContactsComeTo (layers : List Layer) (b : Source κ) (ctx : Context) (c : PeerConfig)
    (rs : List (Except EndpointError SocketAddress)) : Prop where
  value : (c.resolveContacts (layers.foldr Layer.over b) ctx).value? = some rs
  length : rs.length = c.contacts.length
  /-- The result of a contact is the one that its endpoint has alone. -/
  alone : ∀ (i : Nat) (e : Endpoint), c.contacts[i]? = some e →
    ∃ r, rs[i]? = some r ∧ (e.resolve (layers.foldr Layer.over b) ctx c.resolve).value? = some r
  /-- More contacts add their own results. -/
  append : ∀ more : List Endpoint, ∃ rs',
    ({ c with contacts := more }.resolveContacts (layers.foldr Layer.over b) ctx).value? = some rs' ∧
    ({ c with contacts := c.contacts ++ more }.resolveContacts (layers.foldr Layer.over b) ctx).value? = some (rs ++ rs')
  /-- Contacts in another order take their results with them. -/
  perm : ∀ contacts : List Endpoint, c.contacts.Perm contacts →
    ∃ rs', ({ c with contacts }.resolveContacts (layers.foldr Layer.over b) ctx).value? = some rs' ∧
      (c.contacts.zip rs).Perm (contacts.zip rs')
  /-- The source gets the queries that the layers pass on, in order, each once. -/
  queries : (c.resolveContacts (layers.foldr Layer.over b) ctx).queries =
    (c.passed layers).flatMap fun q => (b.block ctx q).queries
  /-- So it gets just these, if it records what it gets. -/
  recorded : (∀ q, (b.block ctx q).queries = [q]) →
    (c.resolveContacts (layers.foldr Layer.over b) ctx).queries = c.passed layers

theorem contactsComeTo {layers : List Layer} {b : Source κ}
    (hs : ∀ q, ((layers.foldr Layer.over b).block ctx q).value?.isSome)
    {alone : Endpoint → Except EndpointError SocketAddress}
    (halone : ∀ e, (e.resolve (layers.foldr Layer.over b) ctx c.resolve).value? = some (alone e)) :
    ContactsComeTo layers b ctx c (c.contacts.map alone) where
  value := value?_resolveContacts halone
  length := List.length_map alone
  alone i e he := ⟨alone e, by rw [List.getElem?_map, he]; rfl, halone e⟩
  append more := by
    refine ⟨more.map alone, value?_resolveContacts halone, ?_⟩
    rw [← List.map_append]
    exact value?_resolveContacts halone
  perm contacts hperm := by
    refine ⟨contacts.map alone, value?_resolveContacts halone, ?_⟩
    rw [← List.map_prod_left_eq_zip, ← List.map_prod_left_eq_zip]
    exact hperm.map _
  queries := queries_resolveContacts_over hs c
  recorded hb := by
    rw [queries_resolveContacts_over hs c]
    simp only [hb, List.flatMap_singleton']

/-! ## Calls -/

/-- A call that resolves endpoints of a configuration. -/
inductive Call where
  | listenOn
  | contacts

/-- The results of a call. -/
def Call.run (s : Source κ) (ctx : Context) (c : PeerConfig) : Call → Run (List (Except EndpointError SocketAddress))
  | listenOn => do return [← c.resolveListenOn s ctx]
  | contacts => c.resolveContacts s ctx

/-- What the calls come to, by the result of the endpoint to listen on and those of the contacts. -/
def Call.results (l : Except EndpointError SocketAddress) (rs : List (Except EndpointError SocketAddress)) :
    Call → List (Except EndpointError SocketAddress)
  | listenOn => [l]
  | contacts => rs

/-- However often they are made and in whatever order, calls give the same results each time. -/
theorem value?_mapM_run {l : Except EndpointError SocketAddress} {rs : List (Except EndpointError SocketAddress)}
    (hl : (c.resolveListenOn s ctx).value? = some l) (hrs : (c.resolveContacts s ctx).value? = some rs)
    (calls : List Call) : (calls.mapM (Call.run s ctx c)).value? = some (calls.map (Call.results l rs)) := by
  refine Run.value?_mapM (fun call => ?_) calls
  cases call with
  | listenOn => simp [Call.run, Call.results, hl]
  | contacts => exact hrs

end PeerConfig

/-! ## Sessions -/

namespace Session

/-- What is outside of the resolver stays the same until the script is changed. -/
theorem surroundings_after {actions : List Action} (hactions : ∀ script, .setScript script ∉ actions) (s : Session) :
    (s.after actions).surroundings = s.surroundings := by
  induction actions generalizing s with
  | nil => rfl
  | cons a actions ih =>
    have hstep : (s.step a).session.surroundings = s.surroundings := by
      rw [surroundings_step]
      cases a with
      | setScript script => exact absurd List.mem_cons_self (hactions script)
      | _ => rfl
    rw [after_cons, ih fun script h => hactions script (List.mem_cons_of_mem a h), hstep]

/-- So the resolver is the same source all the time. -/
theorem source_after {actions : List Action} (hactions : ∀ script, .setScript script ∉ actions) (s : Session) :
    (s.after actions).source = s.source := by
  rw [source, source, resolver_after, surroundings_after hactions]

section Reports

variable {s : Session} {ctx : Context} {c : PeerConfig} {l : Except EndpointError SocketAddress}

theorem report_resolveListenOn (hl : (c.resolveListenOn s.source ctx).value? = some l) :
    (s.step (.resolve c.listenOn c.resolve ctx)).report = .resolved l := by
  have hstep : s.step (.resolve c.listenOn c.resolve ctx) = { s with clock := s.clock + 1 }.conclude
    (c.resolveListenOn s.source ctx) fun s r => (s, .resolved r) := rfl
  rw [hstep, conclude_of_value? hl]

theorem report_resolveConfig {rs : List (Except EndpointError SocketAddress)}
    (hl : (c.resolveListenOn s.source ctx).value? = some l) (hrs : (c.resolveContacts s.source ctx).value? = some rs) :
    (s.step (.resolveConfig c ctx)).report = .config l rs := by
  have hvalue : (s.resolveConfig c ctx).value? = some (l, rs) := by
    simp [resolveConfig, Run.value?_bind, hl, hrs]
  have hstep : s.step (.resolveConfig c ctx) = { s with clock := s.clock + 1 }.conclude
    (s.resolveConfig c ctx) fun s x => (s, .config x.1 x.2) := rfl
  rw [hstep, conclude_of_value? hvalue]

end Reports

end Session

/-! ## All configurations -/

/-- Under layers over any source that never crashes, each contact has the result that it has alone, in the place of the
contact, and the source gets just the queries of the hostname contacts that no layer has. All calls give the same
results, and so do all steps of a session in which the script is not changed. -/
theorem PeerConfig.contacts_resolve_alone (c : PeerConfig) (layers : List Layer) (ctx : Context) :
    (∀ {κ : Type} (b : Source κ), (∀ q, ((layers.foldr Layer.over b).block ctx q).value?.isSome) →
      ∃ l rs, (c.resolveListenOn (layers.foldr Layer.over b) ctx).value? = some l ∧ c.ContactsComeTo layers b ctx rs ∧
        ∀ calls : List Call, (calls.mapM (Call.run (layers.foldr Layer.over b) ctx c)).value? =
          some (calls.map (Call.results l rs))) ∧
    (∀ (bottom : Bottom) (env : Surroundings),
      (∀ q, (((⟨layers, bottom⟩ : Resolver).source env : Source Completion).block ctx q).value?.isSome) →
      ∃ l rs, c.ContactsComeTo layers (bottom.source env : Source Completion) ctx rs ∧
        ∀ actions : List Action, (∀ script, .setScript script ∉ actions) →
        let s := (Session.start ⟨layers, bottom⟩ env).after actions
        (c.resolveContacts s.source ctx).value? = some rs ∧
        (s.step (.resolve c.listenOn c.resolve ctx)).report = .resolved l ∧
        (s.step (.resolveConfig c ctx)).report = .config l rs) := by
  have hresults {κ : Type} (s : Source κ) (hs : ∀ q, (s.block ctx q).value?.isSome) :
      ∃ alone : Endpoint → Except EndpointError SocketAddress,
        ∀ e, (e.resolve s ctx c.resolve).value? = some (alone e) := by
    refine Classical.skolem.1 fun e => Option.isSome_iff_exists.1 ?_
    exact e.isSome_value?_resolve s ctx c.resolve hs
  constructor
  · intro κ b hs
    obtain ⟨alone, halone⟩ := hresults _ hs
    exact ⟨alone c.listenOn, c.contacts.map alone, halone c.listenOn, contactsComeTo hs halone,
      value?_mapM_run (halone c.listenOn) (value?_resolveContacts halone)⟩
  · intro bottom env hs
    obtain ⟨alone, halone⟩ := hresults _ hs
    refine ⟨alone c.listenOn, c.contacts.map alone, contactsComeTo hs halone, fun actions hactions => ?_⟩
    intro s
    have hsource : s.source = (⟨layers, bottom⟩ : Resolver).source env := Session.source_after hactions _
    have hl : (c.resolveListenOn s.source ctx).value? = some (alone c.listenOn) := by
      rw [hsource]
      exact halone c.listenOn
    have hrs : (c.resolveContacts s.source ctx).value? = some (c.contacts.map alone) := by
      rw [hsource]
      exact value?_resolveContacts halone
    exact ⟨hrs, Session.report_resolveListenOn hl, Session.report_resolveConfig hl hrs⟩

/-- Three contacts: the hub is pinned, the relay has no addresses, and the last one is an address. The relay's failure
leaves the others alone, and the bottom is asked for the relay only. -/
theorem PeerConfig.contacts_resolve_alone_relay :
    let hub : HostEndpoint := ⟨"hub.vpn", some "1194", by decide, by decide, by decide, by decide⟩
    let relay : HostEndpoint := ⟨"relay.vpn", some "443", by decide, by decide, by decide, by decide⟩
    let c : PeerConfig := ⟨standardListenOn, [.host hub, .host relay, .ipv4 ⟨10, 8, 0, 2⟩ (some 1194)], .default⟩
    let layers : List Layer := [.shared, .overrides (.ofList [("hub.vpn", [.v4 ⟨10, 8, 0, 1⟩])])]
    let b : Source Unit := Script.nothing.source
    (∀ q, ((layers.foldr Layer.over b).block .running q).value?.isSome) ∧
      ∃ rs, c.ContactsComeTo layers b .running rs ∧ rs[0]? = some (.ok (.v4 ⟨10, 8, 0, 1⟩ 1194)) ∧
        rs[2]? = some (.ok (.v4 ⟨10, 8, 0, 2⟩ 1194)) ∧
        (c.resolveContacts (layers.foldr Layer.over b) .running).queries =
          [⟨"relay.vpn", "443", .unspecified, .default⟩] := by
  intro hub relay c layers b
  have htotal : (Surroundings.mk (fun _ => .ok []) (fun _ => .ok []) .nothing).script.IsTotal := fun _ => rfl
  have hs (q : Query) : ((layers.foldr Layer.over b).block .running q).value?.isSome :=
    Resolver.isSome_value?_block (r := ⟨layers, .scripted⟩) (.inl rfl) htotal .running q
  obtain ⟨l, rs, -, hrs, -⟩ := (contacts_resolve_alone c layers .running).1 b hs
  refine ⟨hs, rs, hrs, ?_, ?_, ?_⟩
  · obtain ⟨r, hr, halone⟩ := hrs.alone 0 _ rfl
    rw [hr]
    exact halone.symm.trans (by decide)
  · obtain ⟨r, hr, halone⟩ := hrs.alone 2 _ rfl
    rw [hr]
    exact halone.symm.trans (by decide)
  · rw [hrs.recorded fun q => Script.nothing.queries_lookup q]
    decide

end Peering
