import Peering.Lookup.Results

/-!
# Reading results with a copy to go back to

A `Cursor` is a sequence of results together with a saved copy of it. `Cursor.step` does one thing with a cursor and
gives what it shows and the cursor after it. Only taking entries and going back change what remains, and only saving
changes the copy.
-/

namespace Peering

/-- A sequence of results and a saved copy. -/
structure Cursor where
  current : Results
  saved : Results
deriving DecidableEq

namespace Cursor

/-- What can be done with a cursor. -/
inductive Action where
  | size
  | isEmpty
  /-- Looks at the entry at the front. -/
  | first
  /-- Looks at all entries. -/
  | entries
  | endpoints
  | sizeBounds
  /-- Takes the entry at the front. -/
  | next
  /-- Takes all entries. -/
  | takeAll
  /-- Makes what remains the saved copy. -/
  | save
  /-- Goes back to the saved copy, which stays. -/
  | restore
  /-- Compares what remains with the saved copy. -/
  | equalsSaved
deriving DecidableEq

/-- What an action shows. -/
inductive View where
  | count (n : Nat)
  | bounds (low high : Nat)
  | flag (b : Bool)
  | entry (e : Option Entry)
  | entries (es : List Entry)
  | endpoints (addresses : List SocketAddress)
deriving DecidableEq

/-- The cursor on a sequence that is its own saved copy. -/
def start (r : Results) : Cursor := ⟨r, r⟩

/-- Does one thing with a cursor. -/
def step (c : Cursor) : Action → View × Cursor
  | .size => (.count c.current.size, c)
  | .isEmpty => (.flag c.current.isEmpty, c)
  | .first => (.entry c.current.first?, c)
  | .entries => (.entries c.current.entries, c)
  | .endpoints => (.endpoints c.current.endpoints, c)
  | .sizeBounds => (.bounds c.current.sizeBounds.1 c.current.sizeBounds.2, c)
  | .next => (.entry c.current.next?.1, { c with current := c.current.next?.2 })
  | .takeAll => (.entries c.current.takeAll.1, { c with current := c.current.takeAll.2 })
  | .save => (.count c.current.size, { c with saved := c.current })
  | .restore => (.count c.saved.size, { c with current := c.saved })
  | .equalsSaved => (.flag (c.current == c.saved), c)

/-- Does things in order: what each shows, and the cursor after all. -/
def run (c : Cursor) : List Action → List View × Cursor
  | [] => ([], c)
  | a :: r =>
    let (view, c) := c.step a
    let (views, c) := c.run r
    (view :: views, c)

end Cursor

end Peering
