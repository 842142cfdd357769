import Peering.Resolver.Stack

/-!
# Stacks of tables

Tables of overrides, one over the other, are as good as one table: a host is pinned to what the outermost table that has
it says. So all that layers do to a source is done by one table.

* `OverrideTable.find?_overlay`, `OverrideTable.find?_stack`: what tables put together pin a host to;
* `Source.pins_overriding`, `Source.agrees_overriding`: a source with a table either answers from the table, the same way
  however it is asked, or is left alone;
* `Source.overriding_overriding`: a table over a table is one table;
* `Layer.foldr_over`: the layers of a resolver are one table;
* `Resolver.pins_source`, `Resolver.agrees_source`: so a resolver answers from its layers, or else from its bottom.

`Source.overridingAll_eq_overriding` states this for tables over any source, with what becomes of a host that is pinned
to nothing.
-/

namespace Peering

/-! ## Tables put together -/

namespace OverrideTable

/-- The hosts of both tables; where both have a host, the first one counts. -/
def overlay (t u : OverrideTable) : OverrideTable where
  entries := t.entries ++ u.entries.filter fun e => (t.find? e.1).isNone
  nodup := by
    rw [List.map_append, List.nodup_append]
    refine ⟨t.nodup, u.nodup.sublist (List.filter_sublist.map _), ?_⟩
    rintro host hhost _ hother rfl
    obtain ⟨e, he, rfl⟩ := List.mem_map.1 hhost
    obtain ⟨f, hf, hfe⟩ := List.mem_map.1 hother
    have hnone : (t.find? f.1).isNone = true := (List.mem_filter.1 hf).2
    rw [hfe, Option.isNone_iff_eq_none, find?, Option.map_eq_none_iff, List.find?_eq_none] at hnone
    exact hnone e he (beq_self_eq_true _)

/-- A host that the first table lacks is where the second one has it. -/
theorem find?_overlay (t u : OverrideTable) (host : String) :
    (t.overlay u).find? host = (t.find? host).or (u.find? host) := by
  have hrest : (t.find? host = none) →
      (u.entries.filter fun e => (t.find? e.1).isNone).find? (·.1 == host) = u.entries.find? (·.1 == host) := by
    intro hnone
    rw [List.find?_filter]
    congr 1
    funext e
    by_cases he : e.1 = host
    · simp [he, hnone]
    · simp [he]
  cases hfind : t.find? host with
  | none =>
    have hfirst : t.entries.find? (·.1 == host) = none := by simpa [find?] using hfind
    rw [Option.none_or, find?, overlay, List.find?_append, hfirst, Option.none_or, hrest hfind, find?]
  | some ips =>
    obtain ⟨e, he, rfl⟩ := Option.map_eq_some_iff.1 hfind
    rw [Option.some_or, find?, overlay, List.find?_append, he, Option.some_or, Option.map_some]

/-- The hosts of all tables; the first one that has a host counts. -/
def stack (tables : List OverrideTable) : OverrideTable := tables.foldr overlay empty

theorem find?_stack (tables : List OverrideTable) (host : String) :
    (stack tables).find? host = tables.findSome? (·.find? host) := by
  induction tables with
  | nil => rfl
  | cons t tables ih =>
    rw [List.findSome?_cons, ← ih]
    exact (find?_overlay t (stack tables) host).trans (by cases t.find? host <;> rfl)

end OverrideTable

/-! ## Sources under a table -/

namespace Source

variable {κ : Type}

/-- However it is asked, the source answers the query at once with what its host is pinned to. It leaves a notice and
does nothing else. -/
structure Pins (s : Source κ) (q : Query) (ips : List IPAddress) : Prop where
  await (ctx : Context) : s.await ctx q = ⟨[.notice (.overridden q.host ips.length)], some (q.answer ips)⟩
  block (ctx : Context) : s.block ctx q = ⟨[.notice (.overridden q.host ips.length)], some (q.answer ips)⟩
  submit (ctx : Context) (c : κ) :
    s.submit ctx q c = ⟨[.notice (.overridden q.host ips.length)], some (.atOnce c (q.answer ips))⟩

/-- However they are asked, two sources do the same for the query. -/
structure AgreesOn (q : Query) (s s' : Source κ) : Prop where
  await (ctx : Context) : s.await ctx q = s'.await ctx q
  block (ctx : Context) : s.block ctx q = s'.block ctx q
  submit (ctx : Context) (c : κ) : s.submit ctx q c = s'.submit ctx q c

section Overriding

variable {q : Query} {t : OverrideTable}

/-- A host in the table is answered from the table. -/
theorem pins_overriding {ips : List IPAddress} (s : Source κ) (h : t.find? q.host = some ips) :
    (s.overriding t).Pins q ips := by
  have hanswer : t.answer? q = some ⟨[.notice (.overridden q.host ips.length)], some (q.answer ips)⟩ := by
    rw [OverrideTable.answer?, h]
    rfl
  refine ⟨fun ctx => ?_, fun ctx => ?_, fun ctx c => ?_⟩
  · simp only [overriding, hanswer, Option.getD_some]
  · simp only [overriding, hanswer, Option.getD_some]
  · simp only [overriding, hanswer]
    rfl

/-- A host that is not in the table is left to the source below. -/
theorem agrees_overriding (s : Source κ) (h : t.find? q.host = none) : AgreesOn q (s.overriding t) s := by
  have hanswer : t.answer? q = none := by
    rw [OverrideTable.answer?, h]
    rfl
  refine ⟨fun ctx => ?_, fun ctx => ?_, fun ctx c => ?_⟩
  · simp only [overriding, hanswer, Option.getD_none]
  · simp only [overriding, hanswer, Option.getD_none]
  · simp only [overriding, hanswer]

end Overriding

/-! ## Tables over a source -/

/-- Tables that pin each host alike do the same to a source. -/
theorem overriding_congr {t u : OverrideTable} (h : ∀ host, t.find? host = u.find? host) (s : Source κ) :
    s.overriding t = s.overriding u := by
  have hanswer : t.answer? = u.answer? := by
    funext q
    rw [OverrideTable.answer?, OverrideTable.answer?, h]
  rw [overriding, overriding, hanswer]

/-- The table without hosts leaves a source as it is. -/
theorem overriding_empty (s : Source κ) : s.overriding .empty = s := rfl

/-- A table over a table is one table, in which the hosts of the outer one count first. -/
theorem overriding_overriding (t u : OverrideTable) (s : Source κ) :
    (s.overriding u).overriding t = s.overriding (t.overlay u) := by
  have hanswer (q : Query) : (t.overlay u).answer? q = (t.answer? q).or (u.answer? q) := by
    rw [OverrideTable.answer?, OverrideTable.find?_overlay, Option.map_or]
    rfl
  simp only [overriding, hanswer, mk.injEq]
  refine ⟨?_, ?_, ?_⟩
  · funext ctx q
    cases t.answer? q <;> rfl
  · funext ctx q
    cases t.answer? q <;> rfl
  · funext ctx q c
    cases t.answer? q <;> rfl

/-- The source with tables before it, the outermost first. -/
def overridingAll (tables : List OverrideTable) (s : Source κ) : Source κ :=
  tables.foldr (fun t s => s.overriding t) s

/-- Tables over a source are as good as the one table of all their hosts. -/
theorem overridingAll_eq_overriding_stack (tables : List OverrideTable) (s : Source κ) :
    s.overridingAll tables = s.overriding (.stack tables) := by
  induction tables with
  | nil => exact s.overriding_empty.symm
  | cons t tables ih =>
    show (s.overridingAll tables).overriding t = _
    rw [ih]
    exact s.overriding_overriding t (.stack tables)

end Source

/-! ## Layers -/

namespace Layer

variable {κ : Type}

/-- What the outermost of the layers that has the host pins it to. -/
def pinned? (host : String) (layers : List Layer) : Option (List IPAddress) :=
  layers.findSome? fun
    | .overrides t => t.find? host
    | .shared => none

/-- The tables among layers. -/
def tables (layers : List Layer) : List OverrideTable :=
  layers.filterMap fun
    | .overrides t => some t
    | .shared => none

theorem find?_stack_tables (host : String) (layers : List Layer) :
    (OverrideTable.stack (tables layers)).find? host = pinned? host layers := by
  rw [OverrideTable.find?_stack]
  induction layers with
  | nil => rfl
  | cons l layers ih =>
    cases l with
    | shared => exact ih
    | overrides t =>
      show (t :: tables layers).findSome? _ = _
      rw [List.findSome?_cons, ih]
      rfl

/-- Layers are as good as their tables, and these as one table. -/
theorem foldr_over (layers : List Layer) (s : Source κ) :
    layers.foldr Layer.over s = s.overriding (.stack (tables layers)) := by
  rw [← s.overridingAll_eq_overriding_stack]
  induction layers with
  | nil => rfl
  | cons l layers ih =>
    rw [List.foldr_cons, ih]
    cases l <;> rfl

/-- A host that some layer has is answered from the outermost such layer. -/
theorem pins_over {layers : List Layer} {q : Query} {ips : List IPAddress} (h : pinned? q.host layers = some ips)
    (s : Source κ) : (layers.foldr Layer.over s).Pins q ips := by
  rw [foldr_over]
  exact Source.pins_overriding s (by rw [find?_stack_tables, h])

/-- A host that no layer has is left to the source below. -/
theorem agrees_over {layers : List Layer} {q : Query} (h : pinned? q.host layers = none) (s : Source κ) :
    Source.AgreesOn q (layers.foldr Layer.over s) s := by
  rw [foldr_over]
  exact Source.agrees_overriding s (by rw [find?_stack_tables, h])

end Layer

namespace Resolver

variable {κ : Type} {r : Resolver} {q : Query}

theorem pins_source {ips : List IPAddress} (h : Layer.pinned? q.host r.layers = some ips) (env : Surroundings) :
    (r.source env : Source κ).Pins q ips := Layer.pins_over h _

theorem agrees_source (h : Layer.pinned? q.host r.layers = none) (env : Surroundings) :
    Source.AgreesOn q (r.source env : Source κ) (r.bottom.source env) := Layer.agrees_over h _

end Resolver

/-! ## Hosts without addresses -/

/-- Out of no addresses comes an error, which names the service or else the host. -/
theorem Query.answer_nil (q : Query) :
    q.answer [] = .error (.serviceNotFound q.service) ∨
      q.answer [] = .error (.noAddresses q.host "No addresses match the requested protocol") := by
  rw [answer]
  cases hport : q.port with
  | error e =>
    obtain rfl := Service.resolve_eq_error hport
    exact .inl rfl
  | ok port => exact .inr rfl

/-! ## One table for many -/

namespace Source

variable {κ : Type}

/-- Tables over any source do just what one table does that pins each host to what the first of them that has it says.
So a host that the first of them pins to nothing fails at once, whatever stands below, and tables without hosts do
nothing. -/
theorem overridingAll_eq_overriding (tables : List OverrideTable) (s : Source κ) :
    (∃ t : OverrideTable, ∀ host, t.find? host = tables.findSome? (·.find? host)) ∧
    (∀ t : OverrideTable, (∀ host, t.find? host = tables.findSome? (·.find? host)) →
      s.overridingAll tables = s.overriding t) ∧
    (∀ q : Query, tables.findSome? (·.find? q.host) = some [] →
      (s.overridingAll tables).Pins q [] ∧
        (q.answer [] = .error (.serviceNotFound q.service) ∨
          q.answer [] = .error (.noAddresses q.host "No addresses match the requested protocol"))) ∧
    ((∀ t ∈ tables, t.entries = []) → s.overridingAll tables = s) := by
  have hstack := s.overridingAll_eq_overriding_stack tables
  refine ⟨⟨.stack tables, OverrideTable.find?_stack tables⟩, fun t ht => ?_, fun q hq => ?_, fun hempty => ?_⟩
  · rw [hstack]
    exact s.overriding_congr fun host => by rw [OverrideTable.find?_stack, ht]
  · rw [hstack]
    exact ⟨s.pins_overriding (by rw [OverrideTable.find?_stack, hq]), q.answer_nil⟩
  · rw [hstack]
    refine (s.overriding_congr fun host => ?_).trans s.overriding_empty
    rw [OverrideTable.find?_stack, OverrideTable.find?_empty, List.findSome?_eq_none_iff]
    intro t ht
    rw [OverrideTable.find?, hempty t ht]
    rfl

/-- A table that pins the hub to nothing hides the address that a table below it has, and leaves the relay alone. -/
theorem overridingAll_eq_overriding_hub :
    let outer : OverrideTable := .ofList [("hub.vpn", [])]
    let inner : OverrideTable := .ofList [("hub.vpn", [.v4 ⟨10, 8, 0, 1⟩]), ("relay.vpn", [.v4 ⟨10, 8, 0, 2⟩])]
    let both : OverrideTable := .ofList [("hub.vpn", []), ("relay.vpn", [.v4 ⟨10, 8, 0, 2⟩])]
    let bottom : Source Unit := HostSystem.source fun _ => .ok []
    bottom.overridingAll [outer, inner] = bottom.overriding both ∧
      (bottom.overridingAll [outer, inner]).Pins ⟨"hub.vpn", "1194", .unspecified, ∅⟩ [] ∧
      bottom.overridingAll [.empty, .empty] = bottom := by
  intro outer inner both bottom
  have hfind (host : String) : both.find? host = [outer, inner].findSome? (·.find? host) := by
    simp only [both, outer, inner, OverrideTable.ofList, List.foldl_cons, List.foldl_nil, List.findSome?_cons,
      List.findSome?_nil, OverrideTable.find?_insert, OverrideTable.find?_empty]
    by_cases hhub : "hub.vpn" = host
    · subst hhub
      rfl
    · by_cases hrelay : "relay.vpn" = host
      · subst hrelay
        rfl
      · simp [hhub, hrelay]
  exact ⟨(overridingAll_eq_overriding [outer, inner] bottom).2.1 both hfind,
    ((overridingAll_eq_overriding [outer, inner] bottom).2.2.1 _ rfl).1,
    (overridingAll_eq_overriding [.empty, .empty] bottom).2.2.2 (by decide)⟩

end Source

end Peering
