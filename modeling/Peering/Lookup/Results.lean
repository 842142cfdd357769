import Peering.Address.Basic

/-!
# Results of a lookup

`Results` is a sequence of entries that is read from the front: `next?` takes the first entry off. All that can be
observed of a sequence is a function of the entries that remain, and taking loses none (`next?_append_entries`).
-/

namespace Peering

/-- A resolved endpoint with the names that it was resolved from. -/
structure Entry where
  endpoint : SocketAddress
  hostName : String
  serviceName : String
deriving DecidableEq

/-- A sequence of resolved endpoints, read from the front. -/
structure Results where
  /-- The entries that remain. -/
  entries : List Entry
deriving DecidableEq, Inhabited

namespace Results

/-- The sequence of one entry. -/
def singleton (endpoint : SocketAddress) (hostName serviceName : String) : Results :=
  ⟨[⟨endpoint, hostName, serviceName⟩]⟩

/-- How many entries remain. -/
def size (r : Results) : Nat := r.entries.length

/-- Whether no entry remains. -/
def isEmpty (r : Results) : Bool := r.entries.isEmpty

/-- The entry at the front. -/
def first? (r : Results) : Option Entry := r.entries.head?

/-- The endpoints of the remaining entries. -/
def endpoints (r : Results) : List SocketAddress := r.entries.map Entry.endpoint

/-- The least and the greatest number of entries that can still be taken. -/
def sizeBounds (r : Results) : Nat × Nat := (r.size, r.size)

/-- Takes the entry at the front. -/
def next? (r : Results) : Option Entry × Results :=
  match r.entries with
  | [] => (none, r)
  | e :: es => (some e, ⟨es⟩)

/-- Takes all entries. -/
def takeAll (r : Results) : List Entry × Results := (r.entries, ⟨[]⟩)

/-- Taking an entry loses none. -/
theorem next?_append_entries (r : Results) : r.next?.1.toList ++ r.next?.2.entries = r.entries := by
  obtain ⟨_ | ⟨e, es⟩⟩ := r <;> rfl

/-- Taking an entry gives the one at the front. -/
theorem next?_fst (r : Results) : r.next?.1 = r.first? := by
  obtain ⟨_ | ⟨e, es⟩⟩ := r <;> rfl

/-- Taking an entry leaves those behind it. -/
theorem next?_snd (r : Results) : r.next?.2.entries = r.entries.tail := by
  obtain ⟨_ | ⟨e, es⟩⟩ := r <;> rfl

end Results

end Peering
