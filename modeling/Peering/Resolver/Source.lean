import Peering.Resolver.Guard

/-!
# Sources of answers

A `Source` answers queries in three ways: it is awaited, it blocks the caller, or it is handed a completion. What
becomes of the completion is a `Delivery`. A source that can only be awaited gets its completions by `Source.spawn`,
which makes a `Task` for the background of the `Context` of the call: without a runtime the completion fails at once,
and if the runtime goes away first it fails as well. The type `κ` of completions is whatever the caller knows them by.
-/

namespace Peering

/-- What the network knows about names. -/
abbrev Network := String → Except SystemError (List IPAddress)

/-- What there is to run things in the background where a call is made. -/
inductive Context where
  /-- Nothing. -/
  | absent
  /-- A runtime, which runs until the call is completed. -/
  | running
  /-- A runtime that stays; what is started in it waits until it is run, or until the runtime goes away. -/
  | staying
  /-- A runtime that goes away before it runs anything. -/
  | dropped
  /-- A runtime that has gone away. -/
  | shutDown
deriving DecidableEq

/-! ## Completions on their way -/

/-- A completion that is kept, with the query it belongs to. -/
structure Held (κ : Type) where
  completion : κ
  query : Query
deriving DecidableEq

/-- A lookup in the background, whose answer goes to a completion. -/
structure Task (κ : Type) where
  guard : Guard κ
  lookup : Run Answer

namespace Task

variable {κ : Type}

/-- The task of a lookup for a completion. -/
def make (c : κ) (lookup : Run Answer) : Task κ := ⟨.make c, lookup⟩

/-- Runs the task; if the lookup crashes, the guard is dropped. -/
def run (t : Task κ) : Run (List (κ × Answer)) := do
  match ← t.lookup.attempt with
  | some a => t.guard.complete a
  | none => t.guard.drop

/-- Tears the task down before it has run. -/
def tearDown (t : Task κ) : Run (List (κ × Answer)) := t.guard.drop

end Task

/-- What becomes of the completion of a call. -/
structure Delivery (κ α : Type) where
  /-- What runs before the call returns. -/
  now : List (κ × α)
  /-- What runs after the call has returned, before anything else is done. -/
  later : List (κ × α)
  /-- What waits in the background. -/
  tasks : List (Task κ)
  /-- What is kept until it is told to run. -/
  held : List (Held κ)

namespace Delivery

variable {κ α : Type}

/-- Nothing becomes of any completion. -/
def empty : Delivery κ α := ⟨[], [], [], []⟩

/-- The completion runs before the call returns. -/
def atOnce (c : κ) (a : α) : Delivery κ α := { empty with now := [(c, a)] }

/-- The delivery with something else in place of each answer that has been given. -/
def map {β : Type} (f : α → β) (d : Delivery κ α) : Delivery κ β :=
  ⟨d.now.map fun (c, a) => (c, f a), d.later.map fun (c, a) => (c, f a), d.tasks, d.held⟩

end Delivery

/-! ## Sources -/

/-- A way to get answers. -/
structure Source (κ : Type) where
  /-- Waits for an answer in the background of the context. -/
  await : Context → Query → Run Answer
  /-- Blocks until there is an answer. -/
  block : Context → Query → Run Answer
  /-- Takes a completion for the answer. -/
  submit : Context → Query → κ → Run (Delivery κ Answer)

namespace Source

/-- Runs a lookup in the background: `start` happens in the call itself, `lookup` in the background. The guard is made
between the two, so a crash in `start` is a crash of the call, with no delivery. -/
def spawn {κ : Type} (start : Query → Run Unit) (lookup : Query → Run Answer) (ctx : Context) (q : Query) (c : κ) :
    Run (Delivery κ Answer) :=
  match ctx with
  | .absent => do
    .notice (.noRuntime q.host)
    return .atOnce c (.error .noRuntime)
  | .running => do
    start q
    return { Delivery.empty with later := ← (Task.make c (lookup q)).run }
  | .staying => do
    start q
    return { Delivery.empty with tasks := [Task.make c (lookup q)] }
  | .dropped => do
    start q
    return { Delivery.empty with later := ← (Task.make c (lookup q)).tearDown }
  | .shutDown => do
    start q
    return { Delivery.empty with now := ← (Task.make c (lookup q)).tearDown }

end Source

/-! ## Before a lookup -/

/-- What a query comes to before anything is looked up: an answer, or else the port for the addresses to come. -/
def Query.beforeLookup (q : Query) : Answer ⊕ Port :=
  match q.port with
  | .error e => .inl (.error e)
  | .ok port =>
    match q.literalResults port with
    | .error e => .inl (.error e)
    | .ok (some r) => .inl (.ok r)
    | .ok none => .inr port

end Peering
