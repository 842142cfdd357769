import Peering.Proofs.AddressText
import Peering.Session.Step

/-!
# Literal endpoints

A literal endpoint resolves by itself. Whatever the source, be it one that crashes on every query, the context, the
protocol and the flags, what it comes to is decided by its address, its port and the default service alone.

* `Endpoint.IsLiteralSocket`: the socket address, or the error, of a literal endpoint for a default service;
* `Endpoint.Echoes`: what a resolution in the background hands on beside what a blocking one gives;
* `Endpoint.ComesTo`: both kinds of resolution, of any source and as steps of any session.

`Endpoint.comesTo_of_isLiteral` states this for all literal endpoints and all default services.
-/

namespace Peering.Endpoint

/-! ## Literal endpoints -/

/-- The literal endpoints are those of an address and maybe a port. -/
theorem isLiteral_iff {e : Endpoint} : e.isLiteral = true ↔ ∃ address port, e = ofAddressPort port address := by
  constructor
  · intro h
    cases e with
    | ipv4 a port => exact ⟨.v4 a, port, rfl⟩
    | ipv6 a port => exact ⟨.v6 a, port, rfl⟩
    | host g => cases h
  · rintro ⟨a | a, port, rfl⟩ <;> rfl

section

variable {κ : Type} (s : Source κ) (ctx : Context) (o : ResolveOptions) (address : IPAddress) (port : Option Port)

/-- A literal endpoint puts nothing to the source and leaves no notice. -/
theorem resolve_ofAddressPort :
    (ofAddressPort port address).resolve s ctx o = pure (literalSocket address port o.defaultService) := by
  cases address <;> rfl

/-- In the background, too, it puts nothing to the source, and the completion runs before the call returns. -/
theorem resolveAsync_ofAddressPort (c : κ) :
    (ofAddressPort port address).resolveAsync s ctx o c =
      pure (.atOnce c ((literalSocket address port o.defaultService).map literalResults)) := by
  cases address <;> rfl

end

/-! ## What they come to -/

/-- What the endpoint of an address and maybe a port comes to for a default service: the address with the port, or else
with the port that the default service denotes, or else an error that carries the default service. -/
structure IsLiteralSocket (address : IPAddress) (port : Option Port) (defaultService : String)
    (x : Except EndpointError SocketAddress) : Prop where
  sameAddress : ∀ a, x = .ok a → a.address = address
  ownPort : ∀ p, port = some p → x = .ok (.ofAddressPort address p)
  servicePort : port = none → ∀ p, x = .ok (.ofAddressPort address p) ↔ Port.ofString? defaultService = some p
  noPort : port = none → (∀ p, Port.ofString? defaultService ≠ some p) → x = .error (.invalidService defaultService)

theorem isLiteralSocket_literalSocket (address : IPAddress) (port : Option Port) (defaultService : String) :
    IsLiteralSocket address port defaultService (literalSocket address port defaultService) := by
  have hport {p p' : Port} (h : SocketAddress.ofAddressPort address p = .ofAddressPort address p') : p = p' := by
    simpa using congrArg SocketAddress.port h
  cases port with
  | some p =>
    refine ⟨?_, ?_, nofun, nofun⟩
    · rintro _ ⟨⟩
      exact SocketAddress.address_ofAddressPort address p
    · rintro _ ⟨⟩
      rfl
  | none =>
    cases hd : Port.ofString? defaultService with
    | some p =>
      have hx : literalSocket address none defaultService = .ok (.ofAddressPort address p) := by
        simp only [literalSocket, hd]
      rw [hx]
      refine ⟨?_, nofun, fun _ p' => ?_, fun _ h => absurd hd (h p)⟩
      · rintro _ ⟨⟩
        exact SocketAddress.address_ofAddressPort address p
      · rw [hd, Except.ok.injEq, Option.some.injEq]
        exact ⟨hport, congrArg (SocketAddress.ofAddressPort address)⟩
    | none =>
      have hx : literalSocket address none defaultService = .error (.invalidService defaultService) := by
        simp only [literalSocket, hd]
      rw [hx]
      refine ⟨nofun, nofun, fun _ p => ?_, fun _ _ => rfl⟩
      rw [hd]
      exact ⟨nofun, nofun⟩

/-- What a resolution in the background hands on beside what a blocking one gives: the same error, or one entry with the
same endpoint, whose names read back as the address and the port of it. -/
inductive Echoes : Except EndpointError SocketAddress → Outcome → Prop
  | failed (e : EndpointError) : Echoes (.error e) (.error e)
  | single (entry : Entry) (host : IPAddress.ofString? entry.hostName = some entry.endpoint.address)
    (service : Port.ofString? entry.serviceName = some entry.endpoint.port) :
    Echoes (.ok entry.endpoint) (.ok ⟨[entry]⟩)

theorem echoes_literalResults (x : Except EndpointError SocketAddress) : Echoes x (x.map literalResults) := by
  cases x with
  | error e => exact .failed e
  | ok a =>
    refine .single ⟨a, toString a.address, String.ofList a.port.chars⟩ ?_ ?_
    · show IPAddress.ofChars? (String.ofList a.address.chars).toList = _
      rw [String.toList_ofList, IPAddress.ofChars?_chars]
    · show Port.ofChars? (String.ofList a.port.chars).toList = _
      rw [String.toList_ofList, Port.ofChars?_chars]

/-! ## Resolutions -/

/-- Whatever the source, the context, the protocol and the flags, a blocking resolution gives `x`, and one in the
background hands `y` to its completion before it returns, once. Neither puts anything to the source or leaves a notice.
In a session, whatever went before, nothing is left for later steps. -/
structure ComesTo (e : Endpoint) (defaultService : String) (x : Except EndpointError SocketAddress) (y : Outcome) :
    Prop where
  resolve {κ : Type} (s : Source κ) (ctx : Context) (protocol : Protocol) (flags : FlagSet) :
    e.resolve s ctx ⟨protocol, flags, defaultService⟩ = pure x
  resolveAsync {κ : Type} (s : Source κ) (ctx : Context) (protocol : Protocol) (flags : FlagSet) (c : κ) :
    e.resolveAsync s ctx ⟨protocol, flags, defaultService⟩ c = pure ⟨[(c, y)], [], [], []⟩
  step (s : Session) (ctx : Context) (protocol : Protocol) (flags : FlagSet) :
    s.step (.resolve e ⟨protocol, flags, defaultService⟩ ctx) = ⟨{ s with clock := s.clock + 1 }, [], .resolved x⟩
  stepAsync (s : Session) (ctx : Context) (protocol : Protocol) (flags : FlagSet) :
    s.step (.resolveAsync e ⟨protocol, flags, defaultService⟩ ctx) =
      ⟨{ s with clock := s.clock + 1, delivered := s.delivered ++ [.resolution s.clock y], unseen := [] }, [],
        .started (s.unseen ++ [.resolution s.clock y]) []⟩

theorem comesTo_ofAddressPort (address : IPAddress) (port : Option Port) (defaultService : String) :
    ComesTo (ofAddressPort port address) defaultService (literalSocket address port defaultService)
      ((literalSocket address port defaultService).map literalResults) where
  resolve s ctx protocol flags := resolve_ofAddressPort s ctx _ address port
  resolveAsync s ctx protocol flags c := resolveAsync_ofAddressPort s ctx _ address port c
  step s ctx protocol flags := by
    rw [Session.step, Session.act, resolve_ofAddressPort]
    simp [Session.conclude, Session.record, Event.queries, Event.notices]
  stepAsync s ctx protocol flags := by
    rw [Session.step, Session.act, resolveAsync_ofAddressPort]
    simp [Session.conclude, Session.record, Session.afterDelivery, Session.deliver, Session.keep, Session.shown,
      Delivery.atOnce, Delivery.empty, Event.queries, Event.notices, Completion.step]

/-- A literal endpoint comes to the same under all resolvers, contexts, protocols and flags. This is its address with
its own port or the default service as a port, and a resolution in the background hands on just that, once, before it
returns. -/
theorem comesTo_of_isLiteral {e : Endpoint} (he : e.isLiteral = true) :
    ∃ address port, e = ofAddressPort port address ∧
      ∀ defaultService, ∃ x y, e.ComesTo defaultService x y ∧ IsLiteralSocket address port defaultService x ∧ Echoes x y := by
  obtain ⟨address, port, rfl⟩ := isLiteral_iff.1 he
  refine ⟨address, port, rfl, fun defaultService => ?_⟩
  exact ⟨_, _, comesTo_ofAddressPort address port defaultService,
    isLiteralSocket_literalSocket address port defaultService, echoes_literalResults _⟩

/-- The loopback address without a port takes its port from a default service with leading zeros. -/
theorem comesTo_loopback :
    let e : Endpoint := .ipv4 ⟨127, 0, 0, 1⟩ none
    e.isLiteral = true ∧ ∃ x y, e.ComesTo "01194" x y ∧ x = .ok (.v4 ⟨127, 0, 0, 1⟩ 1194) ∧ Echoes x y := by
  refine ⟨rfl, ?_⟩
  obtain ⟨address, port, he, h⟩ := comesTo_of_isLiteral (e := .ipv4 ⟨127, 0, 0, 1⟩ none) rfl
  obtain ⟨x, y, hcomes, hsocket, hechoes⟩ := h "01194"
  refine ⟨x, y, hcomes, ?_, hechoes⟩
  cases address with
  | v6 a => cases he
  | v4 a =>
    cases he
    exact (hsocket.servicePort rfl 1194).2 (by decide)

end Peering.Endpoint
