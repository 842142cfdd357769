import Peering.Config.File
import Peering.Proofs.EndpointText
import Peering.Proofs.FlagNames
import Peering.Proofs.JsonText

/-!
# Configurations and their documents

A configuration whose endpoints can be written has a document, and the document is read as the configuration that the
endpoints' texts denote (`PeerConfig.load_of_store`). That is the configuration itself but for hostnames that are texts
of IPv4 addresses (`PeerConfig.asRead`). Whatever is read has only endpoints that read back as they are
(`PeerConfig.namedIPv4?_of_load`), so what is read and written and read again stays what it is. `PeerConfig.load_store`
puts this together.
-/

namespace Peering

open Json

/-! ## Flags and families -/

namespace FlagSet

theorem checked_eq_ok_iff {names : List String} {s : FlagSet} : checked names = .ok s ↔ ofNames names = .ok s :=
  mapError_eq_ok

/-- A set is read back from its value. -/
theorem reads_toValue (s : FlagSet) (depth : Nat) : Reads FlagSet.read (s.toValue.pretty depth) s := by
  have hnames : List.Forall₂ (fun (v : Value) x => Reads (readText "a string") (v.pretty (depth + 1)) x)
      (s.names.map Value.string) s.names := by
    rw [List.forall₂_map_left_iff, List.forall₂_same]
    intro name _
    rw [Value.pretty]
    exact (readsString_quote name).reads_text _
  refine (Value.reads_pretty_list hnames).map fun t r hread => ?_
  simp [FlagSet.read, hread, checked, ofNames_names, Except.mapError]

end FlagSet

/-- A family is read back from its value. -/
theorem Protocol.reads_toValue (p : Protocol) (depth : Nat) : Reads Protocol.read (p.toValue.pretty depth) p := by
  rw [toValue, Value.pretty]
  exact (readsString_quote p.name).reads_variant (by cases p <;> decide)

/-! ## Options -/

namespace ResolveOptions

/-- Options are read back from their value. -/
theorem reads_toValue (o : ResolveOptions) (depth : Nat) :
    Reads ResolveOptions.read (o.toValue.pretty depth) o := by
  have hprotocol := o.protocol.reads_toValue (depth + 1)
  have hflags := o.flags.reads_toValue (depth + 1)
  have hservice := (readsString_quote o.defaultService).reads_text "a string"
  -- One field after the other, each read into the draft that the fields before it have left.
  have hlast : Value.MembersRead fields (depth + 1) ⟨some o.protocol, some o.flags, none⟩
      [("default_service", .string o.defaultService)] ⟨some o.protocol, some o.flags, some o.defaultService⟩ := by
    refine .cons rfl rfl ?_ (.nil _)
    rw [Value.pretty]
    exact hservice.map fun s r h => by simp [h]
  have hmore : Value.MembersRead fields (depth + 1) ⟨some o.protocol, none, none⟩
      [("flags", o.flags.toValue), ("default_service", .string o.defaultService)]
      ⟨some o.protocol, some o.flags, some o.defaultService⟩ :=
    .cons rfl rfl (hflags.map fun s r h => by simp [h]) hlast
  have hall : Value.MembersRead fields (depth + 1) Draft.empty
      [("protocol", o.protocol.toValue), ("flags", o.flags.toValue), ("default_service", .string o.defaultService)]
      ⟨some o.protocol, some o.flags, some o.defaultService⟩ :=
    .cons rfl rfl (hprotocol.map fun s r h => by simp [h, Draft.empty]) hmore
  refine (Value.reads_pretty_object "struct ResolveOptions" hall).map fun t r hread => ?_
  simp [ResolveOptions.read, hread, Draft.finish]

end ResolveOptions

/-! ## Endpoints -/

namespace Endpoint

/-- The endpoint that the text of an endpoint denotes: a hostname that is the text of an IPv4 address counts as the
address, and the service as its port. -/
def asRead : Endpoint → Endpoint
  | host h =>
    match IPv4.ofChars? h.hostname.toList with
    | some q => ipv4 q (h.service.bind Port.ofString?)
    | none => host h
  | e => e

/-- An endpoint without a text: its hostname is the text of an IPv4 address, and its service is no port. -/
def IsUnwritable (e : Endpoint) : Prop :=
  ∃ h q u, e = host h ∧ IPv4.ofChars? h.hostname.toList = some q ∧ h.service = some u ∧ Port.ofString? u = none

/-- An endpoint is its own text's endpoint exactly if its hostname is not the text of an address. -/
theorem asRead_eq_self_iff {e : Endpoint} : e.asRead = e ↔ e.namedIPv4? = none := by
  cases e with
  | ipv4 q p => simp [asRead, namedIPv4?]
  | ipv6 a p => simp [asRead, namedIPv4?]
  | host h => cases hq : IPv4.ofChars? h.hostname.toList <;> simp [asRead, namedIPv4?, hq]

theorem namedIPv4?_asRead (e : Endpoint) : e.asRead.namedIPv4? = none := by
  cases e with
  | ipv4 q p => rfl
  | ipv6 a p => rfl
  | host h => cases hq : IPv4.ofChars? h.hostname.toList <;> simp [asRead, namedIPv4?, hq]

theorem not_isUnwritable {e : Endpoint} (h : e.namedIPv4? = none) : ¬ e.IsUnwritable := by
  rintro ⟨g, q, u, rfl, hq, -⟩
  simp [namedIPv4?, hq] at h

/-- The text of an endpoint that can be written is read as `asRead` says. -/
theorem ofChars_chars_asRead {e : Endpoint} (h : ¬ e.IsUnwritable) : ofChars e.chars = .ok e.asRead := by
  by_cases hn : e.namedIPv4? = none
  · rw [asRead_eq_self_iff.2 hn]
    exact ofChars_chars hn
  cases e with
  | ipv4 q p => exact absurd rfl hn
  | ipv6 a p => exact absurd rfl hn
  | host g =>
    obtain ⟨q, hq⟩ := Option.ne_none_iff_exists'.1 hn
    rw [namedIPv4?] at hq
    rw [ofChars_chars_named hq]
    cases hs : g.service with
    | none => simp [asRead, hq, hs]
    | some u =>
      cases hp : Port.ofString? u with
      | none => exact absurd ⟨g, q, u, rfl, hq, hs, hp⟩ h
      | some p => simp [asRead, hq, hs, hp]

/-- An endpoint that can be written has its text as its value. -/
theorem toValue_eq_ok {e : Endpoint} (h : ¬ e.IsUnwritable) : e.toValue = .ok (.string (toString e)) := by
  have hback : e.readsBack = .ok () := by
    cases e with
    | ipv4 q p => rfl
    | ipv6 a p => rfl
    | host g =>
      rw [readsBack, ofChars_chars_asRead h]
      rfl
  rw [toValue, hback]

/-- The refusal of an endpoint without a text names the text that it would have had. -/
theorem toValue_eq_error {e : Endpoint} (h : e.IsUnwritable) : ∃ m, e.toValue = .error (.refused m) := by
  obtain ⟨g, q, u, rfl, hq, hs, hp⟩ := h
  have hback : (host g).readsBack = .error (.invalidService u) := by
    rw [readsBack, ofChars_chars_named hq, hs]
    simp only [hp]
    rfl
  rw [toValue, hback]
  exact ⟨_, rfl⟩

/-- An endpoint that can be written is read from its text. -/
theorem reads_toString {e : Endpoint} (h : ¬ e.IsUnwritable) (depth : Nat) :
    Reads Endpoint.read ((Value.string (toString e)).pretty depth) e.asRead := by
  rw [Value.pretty]
  refine ((readsString_quote _).reads_text "a string").map fun s r hread => ?_
  have hchecked : checked (toString e) = .ok e.asRead := by
    rw [checked, ofString_toString_eq, ofChars_chars_asRead h]
    rfl
  simp [Endpoint.read, hread, hchecked]

theorem checked_eq_ok_iff {s : String} {e : Endpoint} : checked s = .ok e ↔ ofString s = .ok e := mapError_eq_ok

/-- An endpoint that is read has no hostname that is the text of an address. -/
theorem gives_read : Gives Endpoint.read fun e => e.namedIPv4? = none := by
  intro s e r hread
  rw [Endpoint.read] at hread
  obtain ⟨⟨text, s₁⟩, -, hread⟩ := bind_eq_ok.1 hread
  obtain ⟨e', hchecked, hread⟩ := bind_eq_ok.1 hread
  obtain ⟨rfl, -⟩ : e' = e ∧ s₁ = r := by simpa using hread
  exact namedIPv4?_of_ofChars (checked_eq_ok_iff.1 hchecked)

end Endpoint

/-! ## Configurations -/

namespace PeerConfig

/-- The endpoints of a configuration: the one to listen on, then the contacts. -/
def endpoints (c : PeerConfig) : List Endpoint := c.listenOn :: c.contacts

/-- The configuration that the document of a configuration denotes: each endpoint as its text is read. -/
def asRead (c : PeerConfig) : PeerConfig := ⟨c.listenOn.asRead, c.contacts.map Endpoint.asRead, c.resolve⟩

/-- A configuration is its own document's configuration exactly if no hostname is the text of an IPv4 address. -/
theorem asRead_eq_self_iff {c : PeerConfig} : c.asRead = c ↔ ∀ e ∈ c.endpoints, e.namedIPv4? = none := by
  have hcontacts : c.contacts.map Endpoint.asRead = c.contacts ↔ ∀ e ∈ c.contacts, e.namedIPv4? = none := by
    rw [← List.map_inj_left.trans (forall₂_congr fun e _ => Endpoint.asRead_eq_self_iff), List.map_id']
  obtain ⟨l, cs, o⟩ := c
  simp only [asRead, endpoints, List.forall_mem_cons, PeerConfig.mk.injEq, and_true] at hcontacts ⊢
  rw [Endpoint.asRead_eq_self_iff, hcontacts]

/-- All endpoints that are read read back as they are. -/
theorem namedIPv4?_of_mem_asRead {c : PeerConfig} : ∀ e ∈ c.asRead.endpoints, e.namedIPv4? = none := by
  simp only [asRead, endpoints, List.forall_mem_cons, List.forall_mem_map]
  exact ⟨c.listenOn.namedIPv4?_asRead, fun e _ => e.namedIPv4?_asRead⟩

/-! ### Writing -/

/-- The values of contacts that can be written are their texts. -/
theorem mapM_toValue_eq_ok {cs : List Endpoint} (h : ∀ e ∈ cs, ¬ e.IsUnwritable) :
    cs.mapM Endpoint.toValue = .ok (cs.map fun e => .string (toString e)) := by
  induction cs with
  | nil => rfl
  | cons e cs ih =>
    rw [List.forall_mem_cons] at h
    simp [Endpoint.toValue_eq_ok h.1, ih h.2]

/-- One contact without a text is enough for there to be no values. -/
theorem mapM_toValue_eq_error {cs : List Endpoint} {e : Endpoint} (he : e ∈ cs) (hun : e.IsUnwritable) :
    ∃ m, cs.mapM Endpoint.toValue = .error (.refused m) := by
  induction cs with
  | nil => cases he
  | cons d cs ih =>
    by_cases hd : d.IsUnwritable
    · obtain ⟨m, hm⟩ := Endpoint.toValue_eq_error hd
      exact ⟨m, by simp [hm]⟩
    · have htail : e ∈ cs := by
        rcases List.mem_cons.1 he with rfl | htail
        · exact absurd hun hd
        · exact htail
      obtain ⟨m, hm⟩ := ih htail
      exact ⟨m, by simp [Endpoint.toValue_eq_ok hd, hm]⟩

/-- The value of a configuration all of whose endpoints can be written. -/
def written (c : PeerConfig) : Value :=
  .object
    [("listen_on", .string (toString c.listenOn)), ("contacts", .list (c.contacts.map fun e => .string (toString e))),
      ("resolve", c.resolve.toValue)]

theorem toValue_eq_ok {c : PeerConfig} (h : ∀ e ∈ c.endpoints, ¬ e.IsUnwritable) : c.toValue = .ok c.written := by
  rw [endpoints, List.forall_mem_cons] at h
  simp [toValue, Endpoint.toValue_eq_ok h.1, mapM_toValue_eq_ok h.2, written]

theorem toValue_eq_error {c : PeerConfig} {e : Endpoint} (he : e ∈ c.endpoints) (hun : e.IsUnwritable) :
    ∃ m, c.toValue = .error (.refused m) := by
  by_cases hl : c.listenOn.IsUnwritable
  · obtain ⟨m, hm⟩ := Endpoint.toValue_eq_error hl
    exact ⟨m, by simp [toValue, hm]⟩
  · have hcontact : e ∈ c.contacts := by
      rcases List.mem_cons.1 he with rfl | hcontact
      · exact absurd hun hl
      · exact hcontact
    obtain ⟨m, hm⟩ := mapM_toValue_eq_error hcontact hun
    exact ⟨m, by simp [toValue, Endpoint.toValue_eq_ok hl, hm]⟩

/-- A configuration all of whose endpoints can be written has a document. -/
theorem store_eq_ok {c : PeerConfig} (h : ∀ e ∈ c.endpoints, ¬ e.IsUnwritable) :
    c.store = .ok c.written.toPretty := by
  rw [store, toJson, toValue_eq_ok h]
  rfl

/-- There is no document exactly if some endpoint has no text. -/
theorem exists_store_eq_error_iff {c : PeerConfig} :
    (∃ f, c.store = .error f) ↔ ∃ e ∈ c.endpoints, e.IsUnwritable := by
  constructor
  · rintro ⟨f, hf⟩
    by_contra hall
    rw [store_eq_ok fun e he hun => hall ⟨e, he, hun⟩] at hf
    cases hf
  · rintro ⟨e, he, hun⟩
    obtain ⟨m, hm⟩ := toValue_eq_error he hun
    rw [store, toJson, hm]
    exact ⟨_, rfl⟩

/-- The failure of writing is one of the document, never one of a file. -/
theorem store_eq_error {c : PeerConfig} {f : ConfigError} (h : c.store = .error f) : ∃ cause, f = .json cause := by
  cases hjson : c.toJson with
  | error cause => exact ⟨cause, by simpa [store, hjson, Except.mapError, eq_comm] using h⟩
  | ok s => simp [store, hjson, Except.mapError] at h

/-! ### Reading -/

/-- A configuration that can be written is read back as its texts denote it. -/
theorem reads_written {c : PeerConfig} (h : ∀ e ∈ c.endpoints, ¬ e.IsUnwritable) :
    Reads PeerConfig.read (c.written.pretty 0) c.asRead := by
  rw [endpoints, List.forall_mem_cons] at h
  have hlisten := Endpoint.reads_toString h.1 1
  have hcontacts : Reads (readList Endpoint.read) ((Value.list (c.contacts.map fun e => .string (toString e))).pretty 1)
      (c.contacts.map Endpoint.asRead) := by
    refine Value.reads_pretty_list ?_
    rw [List.forall₂_map_left_iff, List.forall₂_map_right_iff, List.forall₂_same]
    exact fun e he => Endpoint.reads_toString (h.2 e he) 2
  have hresolve := c.resolve.reads_toValue 1
  -- One field after the other, as for the options.
  have hlast : Value.MembersRead fields 1 ⟨some c.listenOn.asRead, some (c.contacts.map Endpoint.asRead), none⟩
      [("resolve", c.resolve.toValue)]
      ⟨some c.listenOn.asRead, some (c.contacts.map Endpoint.asRead), some c.resolve⟩ :=
    .cons rfl rfl (hresolve.map fun s r h => by simp [h]) (.nil _)
  have hmore : Value.MembersRead fields 1 ⟨some c.listenOn.asRead, none, none⟩
      [("contacts", .list (c.contacts.map fun e => .string (toString e))), ("resolve", c.resolve.toValue)]
      ⟨some c.listenOn.asRead, some (c.contacts.map Endpoint.asRead), some c.resolve⟩ :=
    .cons rfl rfl (hcontacts.map fun s r h => by simp [h]) hlast
  have hall : Value.MembersRead fields 1 Draft.empty
      [("listen_on", .string (toString c.listenOn)), ("contacts", .list (c.contacts.map fun e => .string (toString e))),
        ("resolve", c.resolve.toValue)]
      ⟨some c.listenOn.asRead, some (c.contacts.map Endpoint.asRead), some c.resolve⟩ :=
    .cons rfl rfl (hlisten.map fun s r h => by simp [h, Draft.empty]) hmore
  refine (Value.reads_pretty_object "struct PeerConfig" hall).map fun t r hread => ?_
  simp [PeerConfig.read, hread, Draft.finish, asRead]

/-- A document that was written is read back as its texts denote it. -/
theorem load_of_store {c : PeerConfig} {s : String} (hs : c.store = .ok s) : load s = .ok c.asRead := by
  have hall : ∀ e ∈ c.endpoints, ¬ e.IsUnwritable := by
    intro e he hun
    obtain ⟨f, hf⟩ := exists_store_eq_error_iff.2 ⟨e, he, hun⟩
    rw [hs] at hf
    cases hf
  obtain rfl : c.written.toPretty = s := by simpa [store_eq_ok hall] using hs
  have hread : ofJson c.written.toPretty = .ok c.asRead := by
    refine readDocument_of_reads ?_
    rw [Value.toPretty, String.toList_ofList]
    exact reads_written hall
  rw [load, hread]
  rfl

/-- A configuration whose hostnames are no texts of IPv4 addresses is kept by a document. -/
theorem load_store_of_namedIPv4? {c : PeerConfig} (h : ∀ e ∈ c.endpoints, e.namedIPv4? = none) :
    ∃ s, c.store = .ok s ∧ load s = .ok c := by
  have hs := store_eq_ok fun e he => Endpoint.not_isUnwritable (h e he)
  have hload := load_of_store hs
  rw [asRead_eq_self_iff.2 h] at hload
  exact ⟨_, hs, hload⟩

/-- The endpoints that a draft of a configuration knows by now. -/
def Draft.endpoints (d : Draft) : List Endpoint := d.listenOn.toList ++ d.contacts.getD []

/-- A draft whose endpoints all read back as they are. -/
def Draft.ReadsBack (d : Draft) : Prop := ∀ e ∈ d.endpoints, e.namedIPv4? = none

/-- Each field adds only endpoints that read back as they are. -/
theorem gives_readsBack {f : RecordField Draft} (hf : f ∈ fields) {d : Draft} (hd : d.ReadsBack) :
    Gives (f.read d) Draft.ReadsBack := by
  intro s d' r hread
  simp only [Draft.ReadsBack, Draft.endpoints, List.forall_mem_append] at hd ⊢
  simp only [fields, List.mem_cons, List.not_mem_nil, or_false] at hf
  rcases hf with rfl | rfl | rfl
  · obtain ⟨⟨e, s₁⟩, he, hread⟩ := bind_eq_ok.1 hread
    obtain ⟨rfl, -⟩ : { d with listenOn := some e } = d' ∧ s₁ = r := by simpa using hread
    exact ⟨by simpa using Endpoint.gives_read _ _ _ he, hd.2⟩
  · obtain ⟨⟨cs, s₁⟩, hcs, hread⟩ := bind_eq_ok.1 hread
    obtain ⟨rfl, -⟩ : { d with contacts := some cs } = d' ∧ s₁ = r := by simpa using hread
    exact ⟨hd.1, Endpoint.gives_read.list _ _ _ hcs⟩
  · obtain ⟨⟨o, s₁⟩, -, hread⟩ := bind_eq_ok.1 hread
    obtain ⟨rfl, -⟩ : { d with resolve := some o } = d' ∧ s₁ = r := by simpa using hread
    exact hd

/-- The defaults for what a draft does not know have no hostnames. -/
theorem namedIPv4?_of_mem_finish {d : Draft} (hd : d.ReadsBack) : ∀ e ∈ d.finish.endpoints, e.namedIPv4? = none := by
  simp only [Draft.ReadsBack, Draft.endpoints, List.forall_mem_append] at hd
  simp only [endpoints, Draft.finish, List.forall_mem_cons]
  refine ⟨?_, hd.2⟩
  cases hl : d.listenOn with
  | none => rfl
  | some e => exact hd.1 e (by simp [hl])

/-- No configuration that is read has a hostname that is the text of an IPv4 address. -/
theorem namedIPv4?_of_load {t : String} {c : PeerConfig} (h : load t = .ok c) :
    ∀ e ∈ c.endpoints, e.namedIPv4? = none := by
  have hgives : Gives PeerConfig.read fun c => ∀ e ∈ c.endpoints, e.namedIPv4? = none := by
    intro s c r hread
    rw [PeerConfig.read] at hread
    obtain ⟨⟨d, s₁⟩, hd, hread⟩ := bind_eq_ok.1 hread
    obtain ⟨rfl, -⟩ : d.finish = c ∧ s₁ = r := by simpa using hread
    have hempty : Draft.empty.ReadsBack := by simp [Draft.ReadsBack, Draft.endpoints, Draft.empty]
    exact namedIPv4?_of_mem_finish
      (gives_record _ (fun f hf d hd => gives_readsBack hf hd) hempty _ _ _ hd)
  exact hgives.document (mapError_eq_ok.1 h)

/-- A configuration has no document exactly if some hostname is the text of an IPv4 address with a service that is no
port. A document is read as the configuration with each such hostname as the address that it counts as, which is the
configuration itself exactly if there is no such hostname. That configuration has a document that keeps it, and so has
whatever is read from any document. -/
theorem load_store (c : PeerConfig) :
    ((∃ f, c.store = .error f) ↔ ∃ e ∈ c.endpoints, e.IsUnwritable) ∧
    (∀ f, c.store = .error f → ∃ cause, f = .json cause) ∧
    (∀ s, c.store = .ok s → load s = .ok c.asRead) ∧
    (c.asRead = c ↔ ∀ e ∈ c.endpoints, e.namedIPv4? = none) ∧
    (∃ s, c.asRead.store = .ok s ∧ load s = .ok c.asRead) ∧
    ∀ t d, load t = .ok d → ∃ s, d.store = .ok s ∧ load s = .ok d := by
  refine ⟨exists_store_eq_error_iff, fun f hf => store_eq_error hf, fun s hs => load_of_store hs, asRead_eq_self_iff,
    load_store_of_namedIPv4? namedIPv4?_of_mem_asRead, fun t d h => load_store_of_namedIPv4? (namedIPv4?_of_load h)⟩

/-- A contact whose hostname is the text of an address comes back as the address, with the service as its port. -/
theorem load_store_numeric_contact :
    ∃ s, (PeerConfig.mk standardListenOn
        [.host ⟨"192.0.2.7", some "1194", by decide, by decide, by decide, by decide⟩] .default).store = .ok s ∧
      load s = .ok ⟨standardListenOn, [.ipv4 ⟨192, 0, 2, 7⟩ (some 1194)], .default⟩ := by
  have hwritable : ∀ e ∈ (PeerConfig.mk standardListenOn
      [.host ⟨"192.0.2.7", some "1194", by decide, by decide, by decide, by decide⟩] .default).endpoints,
      ¬ e.IsUnwritable := by
    simp only [endpoints, List.forall_mem_cons, List.not_mem_nil, false_implies, implies_true, and_true]
    refine ⟨Endpoint.not_isUnwritable rfl, ?_⟩
    rintro ⟨h, q, u, he, -, hu, hp⟩
    obtain rfl := Endpoint.host.inj he
    obtain rfl := Option.some.inj hu
    exact absurd hp (by decide)
  have hs := store_eq_ok hwritable
  exact ⟨_, hs, (load_store _).2.2.1 _ hs⟩

end PeerConfig

end Peering
