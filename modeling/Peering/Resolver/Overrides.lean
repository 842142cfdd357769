import Peering.Resolver.Source

/-!
# Tables of overrides

An `OverrideTable` pins hosts to addresses. A source with a table before it (`Source.overriding`) answers from the
table for the hosts in it, at once and in every context, and otherwise as it did. The view of a table is
`OverrideTable.find?`; `find?_insert` says what pinning a host does to it.
-/

namespace Peering

/-- Hosts with the addresses that they are pinned to. -/
structure OverrideTable where
  /-- Each host once. -/
  entries : List (String × List IPAddress)
  nodup : (entries.map Prod.fst).Nodup

namespace OverrideTable

/-- The table without hosts. -/
def empty : OverrideTable := ⟨[], by simp⟩

/-- How many hosts there are. -/
def size (t : OverrideTable) : Nat := t.entries.length

/-- The addresses that a host is pinned to. -/
def find? (t : OverrideTable) (host : String) : Option (List IPAddress) :=
  (t.entries.find? (·.1 == host)).map Prod.snd

/-- The table with a host pinned to addresses, in the place of what the host was pinned to before. -/
def insert (t : OverrideTable) (host : String) (ips : List IPAddress) : OverrideTable where
  entries := (host, ips) :: t.entries.filter (·.1 != host)
  nodup := by
    rw [List.map_cons, List.nodup_cons]
    constructor
    · simp
    · exact t.nodup.sublist (List.filter_sublist.map _)

/-- The table of a list of hosts; the last entry of a host counts. -/
def ofList (l : List (String × List IPAddress)) : OverrideTable := l.foldl (fun t e => t.insert e.1 e.2) empty

@[simp] theorem find?_empty (host : String) : empty.find? host = none := rfl

/-- Pinning a host leaves all other hosts as they were. -/
theorem find?_insert (t : OverrideTable) (host : String) (ips : List IPAddress) (other : String) :
    (t.insert host ips).find? other = if host = other then some ips else t.find? other := by
  simp only [find?, insert, List.find?_cons]
  by_cases h : host = other
  · simp [h]
  · have hb : (host == other) = false := by simpa using h
    simp only [hb, if_neg h, List.find?_filter]
    congr 2
    funext e
    by_cases he : e.1 = other
    · simp [he, Ne.symm h]
    · simp [he]

/-- The answer to a query out of the table, if the host is in it. -/
def answer? (t : OverrideTable) (q : Query) : Option (Run Answer) :=
  (t.find? q.host).map fun ips => do
    .notice (.overridden q.host ips.length)
    return q.answer ips

end OverrideTable

/-- The source with a table before it. -/
def Source.overriding {κ : Type} (t : OverrideTable) (s : Source κ) : Source κ where
  await ctx q := (t.answer? q).getD (s.await ctx q)
  block ctx q := (t.answer? q).getD (s.block ctx q)
  submit ctx q c :=
    match t.answer? q with
    | some a => .atOnce c <$> a
    | none => s.submit ctx q c

end Peering
